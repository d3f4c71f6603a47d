import Lightbringer.Overlay.Sim.GatewayAnswers

/-!
# UPnP between the port mapper and the gateway

The HTTP requests of the mapper as text, what the gateway reads in them however the stream is cut, and what its answer
to a mapping request says of the NAT.
-/

namespace Lightbringer.Overlay

/-! ### The requests of the mapper -/

namespace PortMap

def actionOpen (action : Text) : Text :=
  "<?xml version=\"1.0\"?><s:Envelope xmlns:s=\"http://schemas.xmlsoap.org/soap/envelope/\" ".toList ++
    "s:encodingStyle=\"http://schemas.xmlsoap.org/soap/encoding/\"><s:Body><u:".toList ++ action ++
    " xmlns:u=\"urn:schemas-upnp-org:service:WANIPConnection:1\">".toList

def actionClose (action : Text) : Text := "</u:".toList ++ action ++ "></s:Body></s:Envelope>".toList

def actionBody (action arguments : Text) : Text := actionOpen action ++ arguments ++ actionClose action

def soapFields (endpoint : SocketAddr) (action body : Text) : List (Text × Text) :=
  [("HOST".toList, displaySocketAddr endpoint), ("CONTENT-TYPE".toList, "text/xml; charset=\"utf-8\"".toList),
    ("SOAPACTION".toList, "\"urn:schemas-upnp-org:service:WANIPConnection:1#".toList ++ action ++ ['\"']),
    ("CONTENT-LENGTH".toList, Nat.toDigits 10 (Utf8.byteLength body)), ("CONNECTION".toList, "close".toList)]

/-- `soap_request`. -/
def soapRequest (endpoint : SocketAddr) (control action arguments : Text) : Text :=
  let body := actionBody action arguments
  message ("POST ".toList ++ control ++ " HTTP/1.1".toList) (soapFields endpoint action body) body

/-- The arguments of `AddPortMapping`: the port is asked for outside as it is inside. -/
def mapArguments (port : UInt16) (client : IpAddr) : List (Text × Text) :=
  [("NewRemoteHost".toList, []), ("NewExternalPort".toList, Nat.toDigits 10 port.toNat),
    ("NewProtocol".toList, "UDP".toList), ("NewInternalPort".toList, Nat.toDigits 10 port.toNat),
    ("NewInternalClient".toList, displayIp client), ("NewEnabled".toList, "1".toList),
    ("NewPortMappingDescription".toList, "lightbringer-overlay".toList),
    ("NewLeaseDuration".toList, Nat.toDigits 10 requestLifetimeSecs)]

def describeFields (endpoint : SocketAddr) : List (Text × Text) :=
  [("HOST".toList, displaySocketAddr endpoint), ("CONNECTION".toList, "close".toList)]

/-- What is written to a connection once it is open. -/
def HttpRequest.text (endpoint : SocketAddr) : HttpRequest → Text
  | .describe path => message ("GET ".toList ++ path ++ " HTTP/1.1".toList) (describeFields endpoint) []
  | .getExternalIpAddress control => soapRequest endpoint control "GetExternalIPAddress".toList []
  | .addPortMapping control port client =>
    soapRequest endpoint control "AddPortMapping".toList (elements (mapArguments port client))

end PortMap

namespace Sim
open PortMap (Text Checked TcpId message displaySocketAddr displayIp IsMessage IsLine splitOnce trim eqIgnoreAsciiCase
  parseUnsigned)

/-! ### Requests -/

theorem crlfLines_line {line : Text} (unreturned : '\r' ∉ line) (before rest : Text) :
    crlfLines before (line ++ '\r' :: '\n' :: rest) = (before.reverse ++ line) :: crlfLines [] rest := by
  induction line generalizing before with
  | nil => rw [List.nil_append, crlfLines, List.append_nil]
  | cons c line ih =>
    have other : c ≠ '\r' := fun same => unreturned (same ▸ List.mem_cons_self)
    have step : crlfLines before (c :: (line ++ '\r' :: '\n' :: rest)) =
        crlfLines (c :: before) (line ++ '\r' :: '\n' :: rest) := by
      rw [crlfLines]
      exact fun _ same => absurd same other
    rw [List.cons_append, step, ih (fun member => unreturned (List.mem_cons_of_mem c member))]
    simp

theorem crlfLines_block {headers : List Text} (inLines : ∀ line ∈ headers, IsLine line) :
    crlfLines [] (PortMap.block headers []) = headers ++ [[], []] := by
  induction headers with
  | nil => rfl
  | cons first rest ih =>
    rw [PortMap.block_cons, crlfLines_line (inLines first List.mem_cons_self).unreturned,
      ih (fun line member => inLines line (List.mem_cons_of_mem first member))]
    rfl

theorem requestLength_fields {named : List (Text × Text)} (own : ∀ field ∈ named, PortMap.IsField field) :
    requestLength (named.map PortMap.fieldLine ++ [[], []]) =
      (((named.map (fun field => (field.1, ' ' :: field.2))).find?
      (fun (name, _) => eqIgnoreAsciiCase name "content-length".toList)).bind
        (fun (_, value) => parseUnsigned 64 (trim value))).getD 0 := by
  have last : [([] : Text), []].filterMap (splitOnce ':') = [] := rfl
  rw [requestLength, List.filterMap_append, PortMap.filterMap_fieldLine own, last, List.append_nil]

theorem find_undeclared {named : List (Text × Text)}
    (apart : ∀ field ∈ named, eqIgnoreAsciiCase field.1 "content-length".toList = false) :
    (named.map (fun field => (field.1, ' ' :: field.2))).find?
      (fun (name, _) => eqIgnoreAsciiCase name "content-length".toList) = none := by
  refine List.find?_eq_none.mpr (fun field member => ?_)
  obtain ⟨field', inside, rfl⟩ := List.mem_map.mp member
  dsimp only
  rw [apart field' inside]
  exact Bool.false_ne_true

/-- The first field that names a length declares it. -/
theorem requestLength_declared {others more : List (Text × Text)} {name : Text} {n : Nat}
    (apart : ∀ field ∈ others, eqIgnoreAsciiCase field.1 "content-length".toList = false)
    (own : ∀ field ∈ others ++ (name, Nat.toDigits 10 n) :: more, PortMap.IsField field)
    (here : eqIgnoreAsciiCase name "content-length".toList = true) (fits : n < 2 ^ 64) :
    requestLength ((others ++ (name, Nat.toDigits 10 n) :: more).map PortMap.fieldLine ++ [[], []]) = n := by
  rw [requestLength_fields own, List.map_append, List.find?_append, find_undeclared apart, Option.none_or,
    List.map_cons, List.find?_cons]
  dsimp only
  rw [here]
  dsimp only
  rw [Option.bind_some, PortMap.trim_space, PortMap.trim_solid (PortMap.isWhitespace_toDigits n),
    PortMap.parseUnsigned_toDigits fits, Option.getD_some]

theorem requestLength_none {named : List (Text × Text)} (own : ∀ field ∈ named, PortMap.IsField field)
    (apart : ∀ field ∈ named, eqIgnoreAsciiCase field.1 "content-length".toList = false) :
    requestLength (named.map PortMap.fieldLine ++ [[], []]) = 0 := by
  rw [requestLength_fields own, find_undeclared apart]
  rfl

theorem block_append (headers : List Text) (body : Text) :
    PortMap.block headers body = PortMap.block headers [] ++ body := by
  simp [PortMap.block]

/-- A message whose length is declared is read whole. -/
theorem parse_message {start method path body : Text} {words : List Text} {named : List (Text × Text)}
    (own : IsMessage start named) (asks : PortMap.splitWhitespace start = method :: path :: words)
    (declared : requestLength (named.map PortMap.fieldLine ++ [[], []]) = Utf8.byteLength body)
    (short : Utf8.byteLength (message start named body) < 2 ^ 64) :
    parseHttpRequest (Utf8.encode (message start named body)) =
      .ok (some (⟨method, path, body⟩, Utf8.byteLength (message start named body))) := by
  obtain ⟨before, found, whole⟩ := PortMap.split_block _ _ own.lines body
  have length : Utf8.byteLength (message start named body) =
      Utf8.byteLength (PortMap.block (start :: named.map PortMap.fieldLine) []) + Utf8.byteLength body := by
    rw [message, block_append, Utf8.byteLength_append]
  have cut := Utf8.takeBytes_byteLength body []
  rw [List.append_nil] at cut
  have lines := crlfLines_block own.lines
  rw [List.cons_append] at lines
  unfold parseHttpRequest
  rw [Utf8.decode_encode, Option.bind_some, Utf8.length_encode]
  rw [length] at short ⊢
  rw [message, found]
  dsimp only
  rw [whole, lines]
  dsimp only
  rw [asks]
  dsimp only
  rw [declared, if_neg (Nat.not_le.mpr short), if_neg (Nat.lt_irrefl _), cut]

/-- What has arrived of a request is no request. -/
theorem parse_part {bytes more : List UInt8} {request : HttpRequest} (rest : more ≠ [])
    (parsed : parseHttpRequest (bytes ++ more) = .ok (some (request, (bytes ++ more).length))) :
    parseHttpRequest bytes = .ok none := by
  have fewer : bytes.length < (bytes ++ more).length := by
    rw [List.length_append]
    exact Nat.lt_add_of_pos_right (List.length_pos_iff.mpr rest)
  generalize (bytes ++ more).length = consumed at parsed fewer
  unfold parseHttpRequest at parsed ⊢
  cases first : Utf8.decode bytes with
  | none => rfl
  | some text =>
    cases found : Utf8.split PortMap.headerEnd text with
    | none => rw [Option.bind_some, found]
    | some parts =>
      obtain ⟨before, after⟩ := parts
      rw [Utf8.decode_append first] at parsed
      rw [Option.bind_some, found]
      cases later : Utf8.decode more with
      | none =>
        rw [later] at parsed
        cases parsed
      | some text' =>
        rw [later, Option.map_some, Option.bind_some, Utf8.split_append found] at parsed
        dsimp only at parsed ⊢
        generalize crlfLines [] (before ++ PortMap.headerEnd) = lines at parsed ⊢
        match lines with
        | [] => rfl
        | requestLine :: fieldLines =>
          dsimp only at parsed ⊢
          generalize PortMap.splitWhitespace requestLine = words at parsed ⊢
          match words with
          | [] => rfl
          | [_] => rfl
          | method :: path :: _ =>
            dsimp only at parsed ⊢
            split at parsed
            · cases parsed
            next fits =>
              split at parsed
              · cases parsed
              · split at parsed
                · cases parsed
                · obtain ⟨-, rfl⟩ := Prod.mk.inj (Option.some.inj (Except.ok.inj parsed))
                  rw [if_neg fits, if_pos fewer]

/-! ### Lengths -/

theorem length_flatMap_le {α : Type} {items : List α} {f : α → Text} {most : Nat}
    (each : ∀ item ∈ items, (f item).length ≤ most) : (items.flatMap f).length ≤ items.length * most := by
  induction items with
  | nil => exact Nat.zero_le _
  | cons item rest ih =>
    have first := each item List.mem_cons_self
    have later := ih (fun other member => each other (List.mem_cons_of_mem item member))
    rw [List.flatMap_cons, List.length_append, List.length_cons, Nat.succ_mul]
    omega

theorem length_fieldLine (name value : Text) :
    (PortMap.fieldLine (name, value)).length = name.length + 2 + value.length := by
  simp only [PortMap.fieldLine, List.length_append, List.length_cons, List.length_nil]

/-- A message is no longer than its longest line allows. -/
theorem byteLength_message_le {start : Text} {fields : List (Text × Text)} {most : Nat} (first : start.length ≤ most)
    (each : ∀ field ∈ fields, (PortMap.fieldLine field).length ≤ most) (body : Text) :
    Utf8.byteLength (message start fields body) ≤ ((fields.length + 1) * (most + 2) + 2 + body.length) * 4 := by
  have bytes := Utf8.byteLength_le (message start fields body)
  have lines : ((start :: fields.map PortMap.fieldLine).flatMap (· ++ PortMap.crlf)).length ≤
      (start :: fields.map PortMap.fieldLine).length * (most + 2) := by
    refine length_flatMap_le (fun line member => ?_)
    have short : line.length ≤ most := by
      rcases List.mem_cons.mp member with rfl | inside
      · exact first
      · obtain ⟨field, there, rfl⟩ := List.mem_map.mp inside
        exact each field there
    simpa [PortMap.crlf] using short
  have length : (message start fields body).length ≤ (fields.length + 1) * (most + 2) + 2 + body.length := by
    rw [List.length_cons, List.length_map] at lines
    simp only [message, PortMap.block, List.length_append, PortMap.crlf, List.length_cons, List.length_nil] at lines ⊢
    omega
  omega

theorem length_toDigits_le {n width : Nat} (some_ : 0 < width) (fits : n < 10 ^ width) :
    (Nat.toDigits 10 n).length ≤ width :=
  (Nat.length_toDigits_le_iff (by decide) some_).mpr fits

theorem length_displayIpv4_le (octets : BitVec 32) : (PortMap.displayIpv4 octets).length ≤ 15 := by
  have octet (n : Nat) : (Nat.toDigits 10 (n % 256)).length ≤ 3 :=
    length_toDigits_le (by decide) (Nat.lt_of_lt_of_le (Nat.mod_lt n (by decide)) (by decide))
  have first := octet (octets.toNat / 2 ^ 24)
  have second := octet (octets.toNat / 2 ^ 16)
  have third := octet (octets.toNat / 2 ^ 8)
  have fourth := octet (octets.toNat / 2 ^ 0)
  simp only [PortMap.displayIpv4, PortMap.joinDigits, PortMap.partsOf, List.map_cons, List.map_nil]
  simp only [List.intercalate, List.intersperse, List.flatten_cons, List.flatten_nil, List.length_append,
    List.length_cons, List.length_nil]
  omega

theorem length_displaySocketAddr_le (octets : BitVec 32) (port : UInt16) :
    (displaySocketAddr ⟨.v4 octets, port⟩).length ≤ 21 := by
  have number : (Nat.toDigits 10 port.toNat).length ≤ 5 :=
    length_toDigits_le (by decide) (Nat.lt_of_lt_of_le port.toNat_lt (by decide))
  have address := length_displayIpv4_le octets
  simp only [displaySocketAddr, List.length_append, List.length_cons, List.length_nil]
  omega

/-! ### The requests of the mapper -/

section
variable {octets : BitVec 32} {port : UInt16}

theorem isField_host (octets : BitVec 32) (port : UInt16) :
    PortMap.IsField ("HOST".toList, displaySocketAddr ⟨.v4 octets, port⟩) where
  name := PortMap.forall_literal (by decide)
  value := PortMap.forall_displaySocketAddr (P := fun c => c ≠ '\r' ∧ c ≠ '\n') (by decide) (by decide) (by decide)
    octets port

theorem isField_close : PortMap.IsField ("CONNECTION".toList, "close".toList) :=
  ⟨PortMap.forall_literal (by decide), PortMap.forall_literal (by decide)⟩

theorem isField_action {action : Text} (plain : ∀ c ∈ action, c ≠ '\r' ∧ c ≠ '\n') :
    PortMap.IsField ("SOAPACTION".toList,
      "\"urn:schemas-upnp-org:service:WANIPConnection:1#".toList ++ action ++ ['\"']) where
  name := PortMap.forall_literal (by decide)
  value c member := by
    have service : ∀ c ∈ "\"urn:schemas-upnp-org:service:WANIPConnection:1#".toList, c ≠ '\r' ∧ c ≠ '\n' :=
      PortMap.forall_literal (by decide)
    simp only [List.mem_append, List.mem_singleton] at member
    rcases member with (first | name) | rfl
    · exact service c first
    · exact plain c name
    · decide

/-- The first lines of the requests. -/
theorem start_lines :
    let post := "POST ".toList ++ "/ctl/IPConn".toList ++ " HTTP/1.1".toList
    let get := "GET ".toList ++ "/rootDesc.xml".toList ++ " HTTP/1.1".toList
    (IsLine post ∧ IsLine get) ∧ (post.length ≤ 100 ∧ get.length ≤ 100) ∧
      PortMap.splitWhitespace post = ["POST".toList, "/ctl/IPConn".toList, "HTTP/1.1".toList] ∧
      PortMap.splitWhitespace get = ["GET".toList, "/rootDesc.xml".toList, "HTTP/1.1".toList] := by
  repeat rw [String.toList_ofList]
  refine ⟨⟨.of_forall (by decide) (PortMap.forall_of_all (by decide)),
    .of_forall (by decide) (PortMap.forall_of_all (by decide))⟩, by decide, by decide, by decide⟩

theorem isField_soapFields {action : Text} (plain : ∀ c ∈ action, c ≠ '\r' ∧ c ≠ '\n') (body : Text) :
    ∀ field ∈ PortMap.soapFields ⟨.v4 octets, port⟩ action body, PortMap.IsField field := by
  intro field member
  simp only [PortMap.soapFields, List.mem_cons, List.not_mem_nil, or_false] at member
  rcases member with rfl | rfl | rfl | rfl | rfl
  · exact isField_host octets port
  · exact isField_type (PortMap.forall_literal (by decide))
  · exact isField_action plain
  · exact isField_length _
  · exact isField_close

/-- A request for an action is read with its whole body. -/
theorem parse_soapRequest {action arguments : Text} (plain : ∀ c ∈ action, c ≠ '\r' ∧ c ≠ '\n')
    (short : Utf8.byteLength (PortMap.soapRequest ⟨.v4 octets, port⟩ "/ctl/IPConn".toList action arguments) < 2 ^ 64) :
    parseHttpRequest (Utf8.encode (PortMap.soapRequest ⟨.v4 octets, port⟩ "/ctl/IPConn".toList action arguments)) =
      .ok (some (⟨"POST".toList, "/ctl/IPConn".toList, PortMap.actionBody action arguments⟩,
        Utf8.byteLength (PortMap.soapRequest ⟨.v4 octets, port⟩ "/ctl/IPConn".toList action arguments))) := by
  unfold PortMap.soapRequest at short ⊢
  dsimp only at short ⊢
  generalize PortMap.actionBody action arguments = body at short ⊢
  have own : IsMessage ("POST ".toList ++ "/ctl/IPConn".toList ++ " HTTP/1.1".toList)
      (PortMap.soapFields ⟨.v4 octets, port⟩ action body) :=
    ⟨start_lines.1.1, isField_soapFields plain body⟩
  have fits : Utf8.byteLength body < 2 ^ 64 := by
    rw [message, block_append, Utf8.byteLength_append] at short
    exact Nat.lt_of_le_of_lt (Nat.le_add_left _ _) short
  have apart : ∀ field ∈ (PortMap.soapFields ⟨.v4 octets, port⟩ action body).take 3,
      eqIgnoreAsciiCase field.1 "content-length".toList = false := by
    have names : ∀ name ∈ ["HOST".toList, "CONTENT-TYPE".toList, "SOAPACTION".toList],
        eqIgnoreAsciiCase name "content-length".toList = false := by
      repeat rw [String.toList_ofList]
      decide
    exact fun field member => names field.1 (List.mem_map_of_mem member)
  have here : eqIgnoreAsciiCase "CONTENT-LENGTH".toList "content-length".toList = true := by
    repeat rw [String.toList_ofList]
    decide
  exact parse_message own start_lines.2.2.1 (requestLength_declared apart own.fields here fits) short

theorem length_host_le (octets : BitVec 32) (port : UInt16) :
    (PortMap.fieldLine ("HOST".toList, displaySocketAddr ⟨.v4 octets, port⟩)).length ≤ 100 := by
  have name : "HOST".toList.length ≤ 14 := by simp
  have host := length_displaySocketAddr_le octets port
  rw [length_fieldLine]
  omega

theorem length_fieldLines :
    (PortMap.fieldLine ("CONTENT-TYPE".toList, "text/xml; charset=\"utf-8\"".toList)).length ≤ 100 ∧
      (PortMap.fieldLine ("SOAPACTION".toList,
        "\"urn:schemas-upnp-org:service:WANIPConnection:1#".toList ++ "AddPortMapping".toList ++ ['\"'])).length ≤ 100 ∧
      (PortMap.fieldLine ("CONNECTION".toList, "close".toList)).length ≤ 100 := by
  repeat rw [String.toList_ofList]
  decide

/-- A request for a description has no body. -/
theorem parse_describe : parseHttpRequest (Utf8.encode ((PortMap.HttpRequest.describe "/rootDesc.xml".toList).text
      ⟨.v4 octets, port⟩)) = .ok (some (⟨"GET".toList, "/rootDesc.xml".toList, []⟩,
        Utf8.byteLength ((PortMap.HttpRequest.describe "/rootDesc.xml".toList).text ⟨.v4 octets, port⟩))) := by
  have own : IsMessage ("GET ".toList ++ "/rootDesc.xml".toList ++ " HTTP/1.1".toList)
      (PortMap.describeFields ⟨.v4 octets, port⟩) := by
    refine ⟨start_lines.1.2, fun field member => ?_⟩
    simp only [PortMap.describeFields, List.mem_cons, List.not_mem_nil, or_false] at member
    rcases member with rfl | rfl
    · exact isField_host octets port
    · exact isField_close
  have apart : ∀ field ∈ PortMap.describeFields ⟨.v4 octets, port⟩,
      eqIgnoreAsciiCase field.1 "content-length".toList = false := by
    have names : ∀ name ∈ ["HOST".toList, "CONNECTION".toList],
        eqIgnoreAsciiCase name "content-length".toList = false := by
      repeat rw [String.toList_ofList]
      decide
    exact fun field member => names field.1 (List.mem_map_of_mem member)
  have brief : ∀ field ∈ PortMap.describeFields ⟨.v4 octets, port⟩, (PortMap.fieldLine field).length ≤ 100 := by
    intro field member
    simp only [PortMap.describeFields, List.mem_cons, List.not_mem_nil, or_false] at member
    rcases member with rfl | rfl
    · exact length_host_le octets port
    · exact length_fieldLines.2.2
  have short := byteLength_message_le start_lines.2.1.2 brief []
  have two : (PortMap.describeFields ⟨.v4 octets, port⟩).length = 2 := rfl
  rw [two] at short
  exact parse_message own start_lines.2.2.2 (requestLength_none own.fields apart)
    (Nat.lt_of_le_of_lt short (by decide))

end

/-! ### Descriptions and addresses -/

/-- How long the fixed texts are. -/
theorem fixed_lengths :
    deviceDescription.length ≤ 1000 ∧ (soapOpen "GetExternalIPAddressResponse".toList).length ≤ 1000 ∧
      (soapClose "GetExternalIPAddressResponse".toList).length ≤ 1000 ∧
      (soapFault 718 "ConflictInMappingEntry".toList).length ≤ 1000 ∧
      (soapBody "AddPortMappingResponse".toList []).length ≤ 1000 ∧
      (PortMap.actionOpen "AddPortMapping".toList).length ≤ 300 ∧
      (PortMap.actionClose "AddPortMapping".toList).length ≤ 50 := by
  unfold deviceDescription soapFault soapBody soapOpen soapClose envelope PortMap.actionOpen PortMap.actionClose
  repeat rw [String.toList_ofList]
  decide +kernel

theorem byteLength_lt {text : Text} (short : text.length ≤ 1000) : Utf8.byteLength text < 2 ^ 64 := by
  have bytes := Utf8.byteLength_le text
  omega

/-- An action is named in the request for it. -/
theorem isSome_split_actionBody (action arguments : Text) :
    (Utf8.split action (PortMap.actionBody action arguments)).isSome = true := by
  have named (front back last : Text) :
      (Utf8.split action (front ++ action ++ back ++ arguments ++ last)).isSome = true := by
    have found := Utf8.isSome_split front action (back ++ arguments ++ last)
    simpa only [List.append_assoc] using found
  exact named _ _ _

section
variable {R : Type} {gateway : Gateway} {now : UInt64} {nat : NatBox R}

/-- The mapper finds the control URL in the description. -/
theorem dispatch_describe (sound : gateway.config.upnp ≠ .malformed) :
    ∃ answer body, gateway.dispatchHttp now nat ⟨"GET".toList, "/rootDesc.xml".toList, []⟩ = (gateway, nat, [answer]) ∧
      PortMap.parseHttpResponse answer = some (200, body) ∧
        PortMap.parseControlUrl body = some "/ctl/IPConn".toList := by
  refine ⟨_, _, ?_, parse_httpOk (byteLength_lt fixed_lengths.1), parseControlUrl_deviceDescription⟩
  rw [Gateway.dispatchHttp, if_neg sound, if_pos ⟨rfl, rfl⟩]

/-- The mapper is told the external address of the NAT. -/
theorem dispatch_external {octets : BitVec 32} (sound : gateway.config.upnp ≠ .malformed)
    (external : nat.externalIp = .v4 octets) :
    ∃ answer body, gateway.dispatchHttp now nat ⟨"POST".toList, "/ctl/IPConn".toList,
          PortMap.actionBody "GetExternalIPAddress".toList []⟩ = (gateway, nat, [answer]) ∧
      PortMap.parseHttpResponse answer = some (200, body) ∧ PortMap.externalIpAddress body = some (.v4 octets) := by
  have posts : "POST".toList ≠ "GET".toList := by simp
  have short : Utf8.byteLength (soapBody "GetExternalIPAddressResponse".toList
      (PortMap.tagged "NewExternalIPAddress".toList (displayIp (.v4 octets)))) < 2 ^ 64 := by
    obtain ⟨-, first, last, -⟩ := fixed_lengths
    have tag : "NewExternalIPAddress".toList.length ≤ 20 := by simp
    have address : (displayIp (.v4 octets)).length ≤ 15 := length_displayIpv4_le octets
    have bytes := Utf8.byteLength_le (soapBody "GetExternalIPAddressResponse".toList
      (PortMap.tagged "NewExternalIPAddress".toList (displayIp (.v4 octets))))
    simp only [soapBody, PortMap.tagged, List.length_append, List.length_cons, List.length_nil] at bytes ⊢
    omega
  refine ⟨_, _, ?_, parse_httpOk short, externalIpAddress_soapBody octets⟩
  rw [Gateway.dispatchHttp, if_neg sound, if_neg (fun gets => posts gets.1), if_pos ⟨rfl, rfl⟩,
    if_pos (isSome_split_actionBody _ _), external]

end

/-! ### A mapping request -/

section
variable (port : UInt16) (client : BitVec 32)

/-- The body of the mapper's request for a mapping. -/
def mapBody (port : UInt16) (client : BitVec 32) : Text :=
  PortMap.actionBody "AddPortMapping".toList (PortMap.elements (PortMap.mapArguments port (.v4 client)))

/-- The tags are apart, and begin alike. -/
theorem arguments_named :
    (∀ tag ∈ (PortMap.mapArguments port (.v4 client)).map Prod.fst,
        PortMap.IsTag tag ∧ tag ≠ [] ∧ tag.take 3 = "New".toList ∧ 'G' ∉ tag ∧ tag.length ≤ 25) ∧
      ((PortMap.mapArguments port (.v4 client)).map Prod.fst).Nodup := by
  have tags : let tags := ["NewRemoteHost".toList, "NewExternalPort".toList, "NewProtocol".toList,
        "NewInternalPort".toList, "NewInternalClient".toList, "NewEnabled".toList,
        "NewPortMappingDescription".toList, "NewLeaseDuration".toList]
      (∀ tag ∈ tags, PortMap.IsTag tag ∧ tag ≠ [] ∧ tag.take 3 = "New".toList ∧ 'G' ∉ tag ∧
        tag.length ≤ 25) ∧ tags.Nodup := by
    repeat rw [String.toList_ofList]
    decide
  exact tags

/-- What the values are written without. -/
theorem arguments_without {c : Char} (undigit : PortMap.toDigit 10 c = none) (other : c ≠ '.')
    (texts : ∀ text ∈ [[], "UDP".toList, "1".toList, "lightbringer-overlay".toList], c ∉ text) :
    ∀ item ∈ PortMap.mapArguments port (.v4 client), c ∉ item.2 := by
  have numbers (n : Nat) : c ∉ Nat.toDigits 10 n := PortMap.notMem_toDigits undigit n
  intro item member
  simp only [PortMap.mapArguments, List.mem_cons, List.not_mem_nil, or_false] at member
  rcases member with rfl | rfl | rfl | rfl | rfl | rfl | rfl | rfl
  · exact texts _ (by simp)
  · exact numbers _
  · exact texts _ (by simp)
  · exact numbers _
  · intro inside
    rcases PortMap.mem_displayIpv4 inside with rfl | ⟨d, small, rfl⟩
    · exact other rfl
    · rw [PortMap.toDigit_digitChar small] at undigit
      cases undigit
  · exact texts _ (by simp)
  · exact texts _ (by simp)
  · exact numbers PortMap.requestLifetimeSecs

variable {port client}

/-- Any of the arguments is read back. -/
theorem xmlField_mapBody {tag value : Text} (member : (tag, value) ∈ PortMap.mapArguments port (.v4 client))
    (solid : ∀ c ∈ value, PortMap.isWhitespace c = false) : xmlField (mapBody port client) tag = some value := by
  obtain ⟨named, apart⟩ := arguments_named port client
  have plain := arguments_without port client (c := '<') (by decide) (by decide) (by simp)
  have front : Utf8.clears "<New".toList (PortMap.actionOpen "AddPortMapping".toList) = true := by
    unfold PortMap.actionOpen
    repeat rw [String.toList_ofList]
    decide
  obtain ⟨own, nonempty, new, -⟩ := named tag (List.mem_map_of_mem (f := Prod.fst) member)
  have clear : Utf8.clears (['<'] ++ tag ++ ['>']) (PortMap.actionOpen "AddPortMapping".toList) = true := by
    have shape : ['<'] ++ tag ++ ['>'] = "<New".toList ++ (tag.drop 3 ++ ['>']) := by
      conv_lhs => rw [← List.take_append_drop 3 tag, new]
      simp
    rw [shape]
    exact Utf8.clears_longer front _
  obtain ⟨before, after, here⟩ := List.append_of_mem member
  rw [here] at named plain apart
  have passed : ∀ item ∈ before, PortMap.IsTag item.1 ∧ tag ≠ item.1 ∧ '<' ∉ item.2 := by
    intro item inside
    have earlier := List.mem_append_left ((tag, value) :: after) inside
    refine ⟨(named item.1 (List.mem_map_of_mem (f := Prod.fst) earlier)).1, fun same => ?_, plain item earlier⟩
    rw [List.map_append, List.nodup_append] at apart
    exact apart.2.2 item.1 (List.mem_map_of_mem (f := Prod.fst) inside) tag List.mem_cons_self same.symm
  rw [mapBody, PortMap.actionBody, here]
  exact PortMap.xmlField_elements own nonempty clear passed
    (plain (tag, value) (List.mem_append_right _ List.mem_cons_self)) solid _

theorem xmlField_number {tag : Text} {n bits : Nat}
    (member : (tag, Nat.toDigits 10 n) ∈ PortMap.mapArguments port (.v4 client)) (fits : n < 2 ^ bits) :
    (xmlField (mapBody port client) tag).bind (parseUnsigned bits) = some n := by
  rw [xmlField_mapBody member (PortMap.isWhitespace_toDigits n), Option.bind_some, PortMap.parseUnsigned_toDigits fits]

theorem xmlField_client : (xmlField (mapBody port client) "NewInternalClient".toList).bind
    (PortMap.parseWith PortMap.readIpAddr) = some (.v4 client) := by
  have solid (c : Char) (member : c ∈ displayIp (.v4 client)) : PortMap.isWhitespace c = false := by
    rcases PortMap.mem_displayIpv4 member with rfl | ⟨d, small, rfl⟩
    · decide
    · exact PortMap.isWhitespace_digitChar small
  have member : ("NewInternalClient".toList, displayIp (.v4 client)) ∈ PortMap.mapArguments port (.v4 client) := by
    simp [PortMap.mapArguments]
  rw [xmlField_mapBody member solid, Option.bind_some, PortMap.readIpAddr_display]

variable (port client)

/-- The request asks for a mapping, and for nothing else. -/
theorem asks_mapBody : (Utf8.split "GetExternalIPAddress".toList (mapBody port client)).isSome = false ∧
    (Utf8.split "AddPortMapping".toList (mapBody port client)).isSome = true := by
  have frame : 'G' ∉ PortMap.actionOpen "AddPortMapping".toList ∧
      'G' ∉ PortMap.actionClose "AddPortMapping".toList := by
    unfold PortMap.actionOpen PortMap.actionClose
    repeat rw [String.toList_ofList]
    decide
  obtain ⟨named, -⟩ := arguments_named port client
  have values := arguments_without port client (c := 'G') (by decide) (by decide) (by simp)
  have absent : 'G' ∉ mapBody port client := by
    simp only [mapBody, PortMap.actionBody, PortMap.elements, List.mem_append, List.mem_flatMap, not_or, not_exists,
      not_and]
    refine ⟨⟨frame.1, fun item member inside => ?_⟩, frame.2⟩
    simp only [PortMap.tagged, List.mem_append, List.mem_cons, List.not_mem_nil, or_false] at inside
    have tag := (named item.1 (List.mem_map_of_mem (f := Prod.fst) member)).2.2.2.1
    simp [tag, values item member] at inside
  constructor
  · have clear : Utf8.clears "GetExternalIPAddress".toList (mapBody port client) = true :=
      Utf8.clears_of_notMem absent
    rw [Utf8.split_eq_none (by simp) clear]
    rfl
  · exact isSome_split_actionBody _ _

theorem parse_conflict : ∃ answer, Gateway.conflict = [answer] ∧
    ∀ status body, PortMap.parseHttpResponse answer = some (status, body) → status ≠ 200 := by
  refine ⟨_, rfl, fun status body parsed => ?_⟩
  rw [parse_soapError (byteLength_lt fixed_lengths.2.2.2.1)] at parsed
  cases parsed
  decide

/-- An answer that is no refusal says so in its body, and is behind a lease of the very port that was asked for. -/
theorem addPortMapping_mapBody {R : Type} (now : UInt64) (nat : NatBox R) (gateway : Gateway)
    (grants : gateway.config.upnp = .grant) :
    ∃ gateway' after answer, gateway.addPortMapping now nat (mapBody port client) = (gateway', after, [answer]) ∧
      ∀ body, PortMap.parseHttpResponse answer = some (200, body) → PortMap.addPortMappingResponse body = true ∧
        after.Pinned port ⟨.v4 client, port⟩ (now + asNanos (gateway.grantedLease PortMap.requestLifetimeSecs)) := by
  have external : (xmlField (mapBody port client) "NewExternalPort".toList).bind (parseUnsigned 16) =
      some port.toNat := xmlField_number (by simp [PortMap.mapArguments]) port.toNat_lt
  have internal : (xmlField (mapBody port client) "NewInternalPort".toList).bind (parseUnsigned 16) =
      some port.toNat := xmlField_number (by simp [PortMap.mapArguments]) port.toNat_lt
  have lease : (xmlField (mapBody port client) "NewLeaseDuration".toList).bind (parseUnsigned 32) =
      some PortMap.requestLifetimeSecs := xmlField_number (by simp [PortMap.mapArguments]) (by decide)
  obtain ⟨refusal, same, refused⟩ := parse_conflict
  have own : UInt16.ofNat port.toNat = port := UInt16.ofNat_toNat
  unfold Gateway.addPortMapping
  rw [if_neg (by rw [grants]; decide), external, internal, xmlField_client, lease]
  dsimp only
  rw [own, if_pos grants, Option.getD_some, if_neg (by decide), same]
  cases installed : nat.installStatic now ⟨.v4 client, port⟩ port
      (gateway.grantedLease PortMap.requestLifetimeSecs) with
  | mk after assigned =>
    cases assigned with
    | none => exact ⟨_, _, _, rfl, fun body parsed => absurd rfl (refused 200 body parsed)⟩
    | some other =>
      dsimp only
      split
      next granted =>
        subst granted
        refine ⟨_, _, _, rfl, fun body parsed => ⟨?_, NatBox.pinned_of_granted installed⟩⟩
        rw [parse_httpOk (byteLength_lt fixed_lengths.2.2.2.2.1)] at parsed
        cases parsed
        exact addPortMappingResponse_soapBody
      · exact ⟨_, _, _, rfl, fun body parsed => absurd rfl (refused 200 body parsed)⟩

theorem length_mapBody_le : (mapBody port client).length ≤ 1024 := by
  obtain ⟨-, -, -, -, -, frame⟩ := fixed_lengths
  obtain ⟨named, -⟩ := arguments_named port client
  have values : ∀ item ∈ PortMap.mapArguments port (.v4 client), item.2.length ≤ 20 := by
    have texts : ∀ text ∈ [[], "UDP".toList, "1".toList, "lightbringer-overlay".toList], text.length ≤ 20 := by simp
    have number : (Nat.toDigits 10 port.toNat).length ≤ 5 :=
      length_toDigits_le (by decide) (Nat.lt_of_lt_of_le port.toNat_lt (by decide))
    have lease : (Nat.toDigits 10 PortMap.requestLifetimeSecs).length ≤ 20 :=
      length_toDigits_le (by decide) (by decide)
    intro item member
    simp only [PortMap.mapArguments, List.mem_cons, List.not_mem_nil, or_false] at member
    rcases member with rfl | rfl | rfl | rfl | rfl | rfl | rfl | rfl
    · exact texts _ (by simp)
    · exact Nat.le_trans number (by decide)
    · exact texts _ (by simp)
    · exact Nat.le_trans number (by decide)
    · exact Nat.le_trans (length_displayIpv4_le client) (by decide)
    · exact texts _ (by simp)
    · exact texts _ (by simp)
    · exact lease
  have inside : (PortMap.elements (PortMap.mapArguments port (.v4 client))).length ≤
      (PortMap.mapArguments port (.v4 client)).length * 75 := length_flatMap_le (fun item member => by
      have tag := (named item.1 (List.mem_map_of_mem (f := Prod.fst) member)).2.2.2.2
      have value := values item member
      simp only [PortMap.tagged, List.length_append, List.length_cons, List.length_nil]
      omega)
  have eight : (PortMap.mapArguments port (.v4 client)).length = 8 := rfl
  simp only [mapBody, PortMap.actionBody, List.length_append]
  omega

variable (octets : BitVec 32) (http : UInt16)

/-- The request of the mapper that asks for a mapping. -/
def mapRequest : Text :=
  (PortMap.HttpRequest.addPortMapping "/ctl/IPConn".toList port (.v4 client)).text ⟨.v4 octets, http⟩

theorem byteLength_mapRequest_le : Utf8.byteLength (mapRequest port client octets http) ≤ maxHttpRequest := by
  have body := length_mapBody_le port client
  have bytes := Utf8.byteLength_le (mapBody port client)
  have digits : (Nat.toDigits 10 (Utf8.byteLength (mapBody port client))).length ≤ 5 :=
    length_toDigits_le (by decide) (by omega)
  have brief : ∀ field ∈ PortMap.soapFields ⟨.v4 octets, http⟩ "AddPortMapping".toList (mapBody port client),
      (PortMap.fieldLine field).length ≤ 100 := by
    have name : "CONTENT-LENGTH".toList.length ≤ 14 := by simp
    intro field member
    simp only [PortMap.soapFields, List.mem_cons, List.not_mem_nil, or_false] at member
    rcases member with rfl | rfl | rfl | rfl | rfl
    · exact length_host_le octets http
    · exact length_fieldLines.1
    · exact length_fieldLines.2.1
    · rw [length_fieldLine]
      omega
    · exact length_fieldLines.2.2
  have short := byteLength_message_le start_lines.2.1.1 brief (mapBody port client)
  have five : (PortMap.soapFields ⟨.v4 octets, http⟩ "AddPortMapping".toList (mapBody port client)).length = 5 := rfl
  rw [five] at short
  exact Nat.le_trans short (Nat.le_trans (Nat.mul_le_mul_right 4 (Nat.add_le_add_left body _)) (by decide))

theorem parse_mapRequest : parseHttpRequest (Utf8.encode (mapRequest port client octets http)) =
    .ok (some (⟨"POST".toList, "/ctl/IPConn".toList, mapBody port client⟩,
      (Utf8.encode (mapRequest port client octets http)).length)) := by
  rw [Utf8.length_encode]
  exact parse_soapRequest (PortMap.forall_literal (by decide))
    (Nat.lt_of_le_of_lt (byteLength_mapRequest_le port client octets http) (by decide))

end

/-! ### A mapping request in pieces -/

namespace Gateway

section
variable {R : Type}

/-- The pieces of a stream in order, each with the time and the NAT it comes upon, and what they lead to. -/
def tcpStream (gateway : Gateway) (conn : TcpId) : List (UInt64 × NatBox R × List UInt8) →
    Checked (Gateway × List (NatBox R × List (List UInt8)))
  | [] => .ok (gateway, [])
  | (now, nat, bytes) :: rest => do
    let (gateway, nat, answers) ← gateway.tcpBytes now nat conn bytes
    let (gateway, later) ← gateway.tcpStream conn rest
    .ok (gateway, (nat, answers) :: later)

variable {gateway : Gateway} {conn : TcpId} {before bytes : List UInt8} {octets client : BitVec 32} {http port : UInt16}
  (now : UInt64) (nat : NatBox R)

/-- A piece that another is to follow is kept. -/
theorem tcpBytes_part {more : List UInt8} (opened : gateway.tcpBufs[conn]? = some before) (rest : more ≠ [])
    (whole : before ++ bytes ++ more = Utf8.encode (mapRequest port client octets http)) :
    gateway.tcpBytes now nat conn bytes =
      .ok ({ gateway with tcpBufs := gateway.tcpBufs.insert conn (before ++ bytes) }, nat, []) := by
  have parsed := parse_mapRequest port client octets http
  have short := byteLength_mapRequest_le port client octets http
  rw [← Utf8.length_encode, ← whole, List.length_append] at short
  rw [← whole] at parsed
  unfold tcpBytes
  rw [opened]
  dsimp only
  rw [if_neg (by omega), parse_part rest parsed]

/-- With the last piece the request is served: a grant is a lease of the very port. -/
theorem tcpBytes_last (grants : gateway.config.upnp = .grant) (opened : gateway.tcpBufs[conn]? = some before)
    (whole : before ++ bytes = Utf8.encode (mapRequest port client octets http)) :
    ∃ gateway' after answer, gateway.tcpBytes now nat conn bytes = .ok (gateway', after, [answer]) ∧
      ∀ body, PortMap.parseHttpResponse answer = some (200, body) → PortMap.addPortMappingResponse body = true ∧
        after.Pinned port ⟨.v4 client, port⟩ (now + asNanos (gateway.grantedLease PortMap.requestLifetimeSecs)) := by
  have short := byteLength_mapRequest_le port client octets http
  rw [← Utf8.length_encode, ← whole] at short
  have parsed := parse_mapRequest port client octets http
  rw [← whole] at parsed
  obtain ⟨alone, asked⟩ := asks_mapBody port client
  unfold tcpBytes
  rw [opened]
  dsimp only
  rw [if_neg (Nat.not_lt.mpr short), parsed]
  dsimp only
  unfold dispatchHttp
  have posts : "POST".toList ≠ "GET".toList := by simp
  rw [if_neg (by dsimp only; rw [grants]; decide), if_neg (fun gets => posts gets.1), if_pos ⟨rfl, rfl⟩, alone, asked,
    if_neg (by decide), if_pos rfl]
  obtain ⟨gateway', after, answer, served, held⟩ := addPortMapping_mapBody port client now nat
    { gateway with
      tcpBufs := gateway.tcpBufs.insert conn ((before ++ bytes).drop (before ++ bytes).length)
      stats := { gateway.stats with httpRequests := gateway.stats.httpRequests + 1 } } grants
  exact ⟨gateway', after, answer, by rw [served], held⟩

/-- However the stream is cut, only its last piece is answered. -/
theorem tcpStream_mapRequest (pieces : List (UInt64 × NatBox R × List UInt8)) (grants : gateway.config.upnp = .grant)
    (opened : gateway.tcpBufs[conn]? = some before) (some_ : bytes ≠ [])
    (whole : before ++ pieces.flatMap (fun piece => piece.2.2) ++ bytes =
      Utf8.encode (mapRequest port client octets http)) :
    ∃ gateway' after answer, gateway.tcpStream conn (pieces ++ [(now, nat, bytes)]) =
        .ok (gateway', pieces.map (fun piece => (piece.2.1, [])) ++ [(after, [answer])]) ∧
      ∀ body, PortMap.parseHttpResponse answer = some (200, body) → PortMap.addPortMappingResponse body = true ∧
        after.Pinned port ⟨.v4 client, port⟩ (now + asNanos (gateway.grantedLease PortMap.requestLifetimeSecs)) := by
  induction pieces generalizing gateway before with
  | nil =>
    rw [List.flatMap_nil, List.append_nil] at whole
    obtain ⟨gateway', after, answer, served, held⟩ := tcpBytes_last now nat grants opened whole
    refine ⟨gateway', after, answer, ?_, held⟩
    rw [List.nil_append, tcpStream, served]
    rfl
  | cons piece rest ih =>
    obtain ⟨now', nat', bytes'⟩ := piece
    rw [List.flatMap_cons] at whole
    dsimp only at whole
    have more : rest.flatMap (fun piece => piece.2.2) ++ bytes ≠ [] := List.append_ne_nil_of_right_ne_nil _ some_
    have joined : before ++ bytes' ++ (rest.flatMap (fun piece => piece.2.2) ++ bytes) =
        Utf8.encode (mapRequest port client octets http) := by
      rw [← whole]
      simp
    have kept := tcpBytes_part now' nat' opened more joined
    rw [← List.append_assoc] at joined
    obtain ⟨gateway', after, answer, served, held⟩ :=
      @ih { gateway with tcpBufs := gateway.tcpBufs.insert conn (before ++ bytes') } (before ++ bytes') grants
        Std.TreeMap.getElem?_insert_self joined
    refine ⟨gateway', after, answer, ?_, held⟩
    rw [List.cons_append, tcpStream, kept]
    simp only [bind, Except.bind, served]
    rfl

end

end Gateway

end Sim

end Lightbringer.Overlay
