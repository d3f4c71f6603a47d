import Lightbringer.Overlay.PortMapPanics

/-!
# A response in pieces

A response arrives over TCP in pieces, and whether it is complete is asked of all that has arrived. Where the whole of it
is text, its pieces make no difference: more text neither ends a response earlier nor reads it otherwise.
-/

namespace Lightbringer.Overlay.PortMap
open Machine

/-- What a response decides. -/
structure Verdict where
  phase : Phase
  mapped : Option Mapped
  controlUrl : Option Text
  denials : Nat
  malformedResponses : Nat
  deriving DecidableEq

def PortMapper.verdict (mapper : PortMapper) : Verdict where
  phase := mapper.phase
  mapped := mapper.mapped
  controlUrl := mapper.controlUrl
  denials := mapper.denials
  malformedResponses := mapper.malformedResponses

/-- The pieces, and the end of the stream. -/
def delivery (env : PortMapEnv) (conn : TcpId) : List (List UInt8) → List Input
  | [] => [.tcp env (.closed conn)]
  | chunk :: rest => .tcp env (.data conn chunk) :: delivery env conn rest

def verdictOf (result : Checked (PortMapper × List PortMapAction)) : Checked Verdict :=
  result.map (fun (mapper, _) => mapper.verdict)

/-- The mapper after the response in these pieces. -/
def outcome (latest : Instant) (mapper : PortMapper) (env : PortMapEnv) (conn : TcpId) (chunks : List (List UInt8)) :
    Checked Verdict :=
  verdictOf (runExcept (Checked.step latest) mapper (delivery env conn chunks))

/-- No piece completes a response before the stream ends. Otherwise all of it is text, and if all of it was there
before, it has a status. -/
def Uniform (mapper : PortMapper) (bytes : List UInt8) : Prop :=
  (∀ arrived, mapper.httpBuf <+: arrived → arrived <+: mapper.httpBuf ++ bytes → httpResponseComplete arrived = false) ∨
    ∃ text, Utf8.decode (mapper.httpBuf ++ bytes) = some text ∧
      (bytes = [] → ∃ before body, Utf8.split headerEnd text = some (before, body) ∧
        (parseStatus (before ++ headerEnd)).isSome)

/-! ### Text that goes on -/

/-- More text leaves the response as it is. -/
theorem complete_append {arrived : List UInt8} (complete : httpResponseComplete arrived = true) {more : List UInt8}
    (decodes : (Utf8.decode (arrived ++ more)).isSome) :
    httpResponseComplete (arrived ++ more) = true ∧
      parseHttpResponseChecked (arrived ++ more) = parseHttpResponseChecked arrived := by
  unfold httpResponseComplete at complete ⊢
  unfold parseHttpResponseChecked
  cases read : Utf8.decode arrived with
  | none =>
    rw [read] at complete
    cases complete
  | some text =>
    rw [read] at complete
    rw [Utf8.decode_append read] at decodes ⊢
    obtain ⟨later, read'⟩ := Option.isSome_iff_exists.mp decodes
    obtain ⟨later, read', rfl⟩ := Option.map_eq_some_iff.mp read'
    rw [read']
    dsimp only [Option.map_some, Option.bind_some] at complete ⊢
    cases found : Utf8.split headerEnd text with
    | none =>
      rw [found] at complete
      cases complete
    | some pair =>
      obtain ⟨before, body⟩ := pair
      rw [found] at complete
      rw [Utf8.split_append found]
      dsimp only at complete ⊢
      rw [contentLength_headerEnd]
      cases declared : contentLength before with
      | none =>
        rw [declared] at complete
        cases complete
      | some length =>
        rw [declared] at complete
        have enough : length ≤ Utf8.byteLength body := of_decide_eq_true complete
        have longer : length ≤ Utf8.byteLength (body ++ later) := by
          rw [Utf8.byteLength_append]
          exact Nat.le_add_right_of_le enough
        refine ⟨decide_eq_true longer, ?_⟩
        unfold cutBody
        dsimp only
        rw [if_neg (Nat.not_lt.mpr enough), if_neg (Nat.not_lt.mpr longer), Utf8.takeBytes_append enough]

/-! ### The end of a response -/

namespace Checked

variable {latest : Instant} {mapper : PortMapper} {env : PortMapEnv} {conn : TcpId}

theorem bind_eq_ok {α β : Type} {checked : Checked α} {f : α → Checked β} {b : β} (ok : checked >>= f = .ok b) :
    ∃ a, checked = .ok a ∧ f a = .ok b := by
  cases checked with
  | error panic => cases ok
  | ok a => exact ⟨a, rfl, ok⟩

theorem add_ok {bits a b n : Nat} (ok : add bits a b = .ok n) : n = a + b := by
  unfold add at ok
  split at ok
  · cases ok
    rfl
  · cases ok

theorem later_ok {now due : Instant} {wait : Nat} (ok : later latest now wait = .ok due) : due = now + wait := by
  unfold later at ok
  split at ok
  · cases ok
    rfl
  · cases ok

theorem ladderFailed_ok {next : PortMapper} (ok : ladderFailed latest mapper env = .ok next) :
    next = mapper.ladderFailed env := by
  obtain ⟨due, waits, same⟩ := bind_eq_ok ok
  cases later_ok waits
  cases same
  rfl

/-- The response is used or counted: the request over TCP is over, and where another one can be made, not for
nothing. -/
def Settles (mapper : PortMapper) (env : PortMapEnv) (conn : TcpId)
    (result : Checked (PortMapper × List PortMapAction)) : Prop :=
  ∀ next actions, result = .ok (next, actions) → next.phase.conn ≠ some conn ∧
    (env.tcp.isSome → next.verdict ≠ (mapper.ladderFailed env).verdict)

theorem settles_unusable (latest : Instant) (mapper : PortMapper) (env : PortMapEnv) (conn : TcpId) :
    Settles mapper env conn (unusable latest mapper env) := by
  intro next actions ok
  obtain ⟨counted, counts, ok⟩ := bind_eq_ok ok
  obtain ⟨count, adds, same⟩ := bind_eq_ok counts
  cases add_ok adds
  cases same
  obtain ⟨failed, fails, same⟩ := bind_eq_ok ok
  cases ladderFailed_ok fails
  cases same
  exact ⟨nofun, fun _ same => absurd (congrArg Verdict.malformedResponses same) (Nat.succ_ne_self _)⟩

theorem settles_sendHttp (fresh : env.tcp ≠ some conn) (found : mapper.httpEndpoint.isSome) (request : HttpRequest)
    (control : Option Text) {phase : TcpId → Instant → Phase} (waits : ∀ conn deadline, (phase conn deadline).conn = some conn) :
    Settles mapper env conn (sendHttp latest mapper env request control phase) := by
  intro next actions ok
  obtain ⟨endpoint, some⟩ := Option.isSome_iff_exists.mp found
  unfold sendHttp at ok
  rw [some] at ok
  cases opened : env.tcp with
  | none =>
    rw [opened] at ok
    obtain ⟨failed, fails, same⟩ := bind_eq_ok ok
    cases ladderFailed_ok fails
    cases same
    exact ⟨nofun, nofun⟩
  | some other =>
    rw [opened] at ok fresh
    obtain ⟨deadline, waiting, same⟩ := bind_eq_ok ok
    cases same
    refine ⟨?_, fun _ same => ?_⟩
    · dsimp only
      rw [waits]
      exact fresh
    · have conns := congrArg (fun verdict => verdict.phase.conn) same
      dsimp only [PortMapper.verdict] at conns
      rw [waits] at conns
      cases conns

theorem settles_soap (fresh : env.tcp ≠ some conn) (request : HttpRequest) (control : Option Text)
    {phase : TcpId → Instant → Phase} (waits : ∀ conn deadline, (phase conn deadline).conn = some conn) :
    Settles mapper env conn (do
      let request ← soapRequest mapper request
      sendHttp latest mapper env request control phase) := by
  intro next actions ok
  obtain ⟨written, writes, ok⟩ := bind_eq_ok ok
  refine settles_sendHttp fresh ?_ written control waits next actions ok
  unfold soapRequest at writes
  cases found : mapper.httpEndpoint with
  | some endpoint => rfl
  | none =>
    rw [found] at writes
    cases writes

theorem settles_finishDescribe (fresh : env.tcp ≠ some conn) (status : UInt16) (body : Text) :
    Settles mapper env conn (finishDescribe latest mapper env status body) := by
  unfold finishDescribe
  rw [parseControlUrl_eq, onSuccess_ok, ok_bind]
  split
  · exact settles_soap fresh _ _ (fun _ _ => rfl)
  · exact settles_unusable latest mapper env conn

theorem settles_finishExternal (fresh : env.tcp ≠ some conn) (status : UInt16) (body : Text) :
    Settles mapper env conn (finishExternal latest mapper env status body) := by
  unfold finishExternal
  rw [externalIpAddress_eq, onSuccess_ok, ok_bind]
  split
  · exact settles_soap fresh _ _ (fun _ _ => rfl)
  · exact settles_unusable latest mapper env conn

theorem settles_finishMap (status : UInt16) (body : Text) (externalIp : IpAddr) :
    Settles mapper env conn (finishMap latest mapper env status body externalIp) := by
  intro next actions ok
  unfold finishMap at ok
  split at ok
  · obtain ⟨granted, grants, same⟩ := bind_eq_ok ok
    obtain ⟨due, waits, grants⟩ := bind_eq_ok grants
    cases later_ok waits
    cases grants
    cases same
    refine ⟨nofun, fun _ same => ?_⟩
    have times := congrArg (fun verdict => verdict.phase.deadline) same
    exact absurd (Nat.add_left_cancel times) (by decide)
  · obtain ⟨counted, counts, ok⟩ := bind_eq_ok ok
    obtain ⟨count, adds, same⟩ := bind_eq_ok counts
    cases add_ok adds
    cases same
    obtain ⟨failed, fails, same⟩ := bind_eq_ok ok
    cases ladderFailed_ok fails
    cases same
    exact ⟨nofun, fun _ same => absurd (congrArg Verdict.denials same) (Nat.succ_ne_self _)⟩

theorem settles_finishHttp (active : mapper.phase.conn = some conn) (fresh : env.tcp ≠ some conn) (buf : List UInt8) :
    Settles mapper env conn (finishHttp latest { mapper with httpBuf := buf } env) := by
  unfold finishHttp
  dsimp only
  rw [parseHttpResponse_eq]
  cases parseHttpResponseChecked buf with
  | error panic =>
    intro next actions ok
    cases ok
  | ok response =>
    rw [ok_bind]
    rcases response with _ | ⟨status, body⟩
    · exact settles_unusable latest { mapper with httpBuf := [] } env conn
    dsimp only
    cases phase : mapper.phase with
    | upnpDescribe _ deadline => exact settles_finishDescribe fresh status body
    | upnpExternal _ deadline => exact settles_finishExternal fresh status body
    | upnpMap _ deadline externalIp => exact settles_finishMap status body externalIp
    | idle | pcp | natPmpExternal | natPmpMap | ssdp =>
      rw [phase] at active
      cases active

/-- Only what the parser makes of the bytes matters. -/
theorem finishHttp_congr {buf other : List UInt8}
    (same : parseHttpResponseChecked buf = parseHttpResponseChecked other) :
    finishHttp latest { mapper with httpBuf := buf } env = finishHttp latest { mapper with httpBuf := other } env := by
  unfold finishHttp
  dsimp only
  rw [parseHttpResponse_eq, parseHttpResponse_eq, same]

end Checked

/-! ### One piece after another -/

variable {latest : Instant} {mapper : PortMapper} {env : PortMapEnv} {conn : TcpId}

theorem outcome_nil : outcome latest mapper env conn [] = verdictOf (Checked.onTcpEvent latest mapper env (.closed conn)) := by
  unfold outcome delivery runExcept runExcept
  dsimp only [Checked.step]
  cases Checked.onTcpEvent latest mapper env (.closed conn) with
  | error panic => rfl
  | ok next => rfl

theorem outcome_cons (chunk : List UInt8) (rest : List (List UInt8)) :
    outcome latest mapper env conn (chunk :: rest) =
      Checked.onTcpEvent latest mapper env (.data conn chunk) >>= fun (next, _) => outcome latest next env conn rest := by
  rw [outcome, delivery, runExcept]
  dsimp only [Checked.step]
  cases Checked.onTcpEvent latest mapper env (.data conn chunk) with
  | error panic => rfl
  | ok next =>
    dsimp only [bind, Except.bind, outcome]
    cases runExcept (Checked.step latest) next.1 (delivery env conn rest) with
    | error panic => rfl
    | ok final => rfl

theorem onTcpEvent_inactive {event : TcpEvent} (inactive : mapper.phase.conn ≠ some event.conn) :
    Checked.onTcpEvent latest mapper env event = .ok (mapper, []) := if_neg inactive

/-- What comes over a connection that is not waited on. -/
theorem outcome_inactive (inactive : mapper.phase.conn ≠ some conn) (chunks : List (List UInt8)) :
    outcome latest mapper env conn chunks = .ok mapper.verdict := by
  induction chunks with
  | nil =>
    rw [outcome_nil, onTcpEvent_inactive inactive]
    rfl
  | cons chunk rest ih =>
    rw [outcome_cons, onTcpEvent_inactive inactive]
    exact ih

theorem onTcpEvent_data (active : mapper.phase.conn = some conn) {buf chunk : List UInt8}
    (short : (buf ++ chunk).length ≤ maxHttpResponse) :
    Checked.onTcpEvent latest { mapper with httpBuf := buf } env (.data conn chunk) =
      if httpResponseComplete (buf ++ chunk) then
        Checked.finishHttp latest { mapper with httpBuf := buf ++ chunk } env >>= fun (next, actions) =>
          return (next, .tcpClosed conn :: actions)
      else return ({ mapper with httpBuf := buf ++ chunk }, []) := by
  unfold Checked.onTcpEvent
  refine (if_pos active).trans ?_
  dsimp only [Checked.onActiveTcpEvent]
  rw [if_neg (Nat.not_lt.mpr short), Checked.httpResponseComplete_eq]
  rfl

/-- A piece that completes the response decides it. -/
theorem outcome_complete (active : mapper.phase.conn = some conn) (fresh : env.tcp ≠ some conn)
    {buf chunk : List UInt8} (short : (buf ++ chunk).length ≤ maxHttpResponse)
    (complete : httpResponseComplete (buf ++ chunk) = true) (rest : List (List UInt8)) :
    outcome latest { mapper with httpBuf := buf } env conn (chunk :: rest) =
      verdictOf (Checked.finishHttp latest { mapper with httpBuf := buf ++ chunk } env) := by
  have settles : Checked.Settles mapper env conn
      (Checked.finishHttp latest { mapper with httpBuf := buf ++ chunk } env) :=
    Checked.settles_finishHttp active fresh _
  rw [outcome_cons, onTcpEvent_data active short, if_pos complete]
  cases finished : Checked.finishHttp latest { mapper with httpBuf := buf ++ chunk } env with
  | error panic => rfl
  | ok result => exact outcome_inactive (settles result.1 result.2 finished).1 rest

theorem outcome_incomplete (active : mapper.phase.conn = some conn) {buf chunk : List UInt8}
    (short : (buf ++ chunk).length ≤ maxHttpResponse) (incomplete : httpResponseComplete (buf ++ chunk) = false)
    (rest : List (List UInt8)) :
    outcome latest { mapper with httpBuf := buf } env conn (chunk :: rest) =
      outcome latest { mapper with httpBuf := buf ++ chunk } env conn rest := by
  rw [outcome_cons, onTcpEvent_data active short, if_neg (Bool.eq_false_iff.mp incomplete)]
  rfl

/-- Where no piece completes the response, the end of the stream does. -/
theorem outcome_open (active : mapper.phase.conn = some conn) {buf : List UInt8} {chunks : List (List UInt8)}
    (short : (buf ++ chunks.flatten).length ≤ maxHttpResponse)
    (incomplete : ∀ arrived, buf <+: arrived → arrived <+: buf ++ chunks.flatten → httpResponseComplete arrived = false) :
    outcome latest { mapper with httpBuf := buf } env conn chunks =
      outcome latest { mapper with httpBuf := buf ++ chunks.flatten } env conn [] := by
  induction chunks generalizing buf with
  | nil => rw [List.flatten_nil, List.append_nil]
  | cons chunk rest ih =>
    have whole : buf ++ (chunk :: rest).flatten = buf ++ chunk ++ rest.flatten := by
      rw [List.flatten_cons, List.append_assoc]
    rw [whole] at short incomplete ⊢
    have shorter : (buf ++ chunk).length ≤ maxHttpResponse :=
      (List.length_append ▸ Nat.le_add_right _ _).trans short
    rw [outcome_incomplete active shorter (incomplete _ (List.prefix_append _ _) (List.prefix_append _ _)), ih short]
    exact fun arrived later => incomplete arrived ((List.prefix_append _ _).trans later)

/-- Where all of it is text and completes the response, it is read the same after any piece. -/
theorem outcome_text (active : mapper.phase.conn = some conn) (fresh : env.tcp ≠ some conn) {buf chunk : List UInt8}
    {rest : List (List UInt8)} (short : (buf ++ (chunk :: rest).flatten).length ≤ maxHttpResponse)
    (decodes : (Utf8.decode (buf ++ (chunk :: rest).flatten)).isSome)
    (complete : httpResponseComplete (buf ++ (chunk :: rest).flatten) = true) :
    outcome latest { mapper with httpBuf := buf } env conn (chunk :: rest) =
      verdictOf (Checked.finishHttp latest { mapper with httpBuf := buf ++ (chunk :: rest).flatten } env) := by
  induction rest generalizing buf chunk with
  | nil =>
    rw [List.flatten_cons, List.flatten_nil, List.append_nil] at short complete ⊢
    exact outcome_complete active fresh short complete []
  | cons next rest ih =>
    have whole : buf ++ (chunk :: next :: rest).flatten = buf ++ chunk ++ (next :: rest).flatten := by
      rw [List.flatten_cons, List.append_assoc]
    rw [whole] at short decodes complete ⊢
    have shorter : (buf ++ chunk).length ≤ maxHttpResponse :=
      (List.length_append ▸ Nat.le_add_right _ _).trans short
    by_cases early : httpResponseComplete (buf ++ chunk) = true
    · rw [outcome_complete active fresh shorter early, Checked.finishHttp_congr (complete_append early decodes).2]
    · rw [outcome_incomplete active shorter (Bool.eq_false_iff.mpr early)]
      exact ih short decodes complete

/-! ### The end of the stream -/

theorem onTcpEvent_closed (active : mapper.phase.conn = some conn) (buf : List UInt8) :
    Checked.onTcpEvent latest { mapper with httpBuf := buf } env (.closed conn) =
      parseHttpResponseChecked buf >>= fun response =>
        if response.isSome then Checked.finishHttp latest { mapper with httpBuf := buf } env
        else do return (← Checked.ladderFailed latest { mapper with httpBuf := [] } env, []) := by
  unfold Checked.onTcpEvent
  refine (if_pos active).trans ?_
  dsimp only [Checked.onActiveTcpEvent]
  rw [Checked.parseHttpResponse_eq]

/-- The ladder has failed, and nothing was counted. -/
theorem outcome_unparsed (timely : env.now + longestWait ≤ latest) (active : mapper.phase.conn = some conn)
    {buf : List UInt8} (unparsed : parseHttpResponseChecked buf = .ok none) :
    outcome latest { mapper with httpBuf := buf } env conn [] = .ok (mapper.ladderFailed env).verdict := by
  rw [outcome_nil, onTcpEvent_closed active, unparsed, Checked.ok_bind]
  dsimp only [Option.isSome_none]
  rw [if_neg Bool.false_ne_true, Checked.ladderFailed_eq timely]
  rfl

/-- The parser is of one mind with the check of completeness, if there is a status. -/
theorem outcome_complete_nil (active : mapper.phase.conn = some conn) {buf : List UInt8}
    (parsed : parseHttpResponseChecked buf ≠ .ok none) :
    outcome latest { mapper with httpBuf := buf } env conn [] =
      verdictOf (Checked.finishHttp latest { mapper with httpBuf := buf } env) := by
  rw [outcome_nil, onTcpEvent_closed active]
  cases parse : parseHttpResponseChecked buf with
  | error panic =>
    unfold Checked.finishHttp
    dsimp only
    rw [Checked.parseHttpResponse_eq, parse]
    rfl
  | ok response =>
    rw [Checked.ok_bind]
    cases response with
    | none => exact (parsed parse).elim
    | some response => rfl

theorem parse_complete_iff {buf : List UInt8} (complete : httpResponseComplete buf = true) {text : Text}
    (decoded : Utf8.decode buf = some text) :
    parseHttpResponseChecked buf ≠ .ok none ↔
      ∃ before body, Utf8.split headerEnd text = some (before, body) ∧ (parseStatus (before ++ headerEnd)).isSome := by
  unfold httpResponseComplete at complete
  unfold parseHttpResponseChecked
  rw [decoded] at complete ⊢
  dsimp only [Option.bind_some] at complete ⊢
  cases found : Utf8.split headerEnd text with
  | none =>
    rw [found] at complete
    cases complete
  | some pair =>
    obtain ⟨before, body⟩ := pair
    rw [found] at complete
    dsimp only at complete ⊢
    rw [contentLength_headerEnd]
    cases status : parseStatus (before ++ headerEnd) with
    | none =>
      refine ⟨fun parsed => (parsed rfl).elim, ?_⟩
      rintro ⟨_, _, same, known⟩
      cases same
      rw [status] at known
      cases known
    | some code =>
      refine ⟨fun _ => ⟨before, body, rfl, Option.isSome_of_mem status⟩, fun _ => ?_⟩
      cases declared : contentLength before with
      | none =>
        rw [declared] at complete
        cases complete
      | some length =>
        rw [declared] at complete
        unfold cutBody
        dsimp only
        rw [if_neg (Nat.not_lt.mpr (of_decide_eq_true complete))]
        cases Utf8.takeBytes length body with
        | none => nofun
        | some cut => nofun

/-! ### Any two ways to split a response -/

theorem outcome_of_uniform (active : mapper.phase.conn = some conn) (fresh : env.tcp ≠ some conn) {bytes : List UInt8}
    (short : (mapper.httpBuf ++ bytes).length ≤ maxHttpResponse) (uniform : Uniform mapper bytes)
    {chunks : List (List UInt8)} (whole : chunks.flatten = bytes) :
    outcome latest mapper env conn chunks =
      if httpResponseComplete (mapper.httpBuf ++ bytes) then
        verdictOf (Checked.finishHttp latest { mapper with httpBuf := mapper.httpBuf ++ bytes } env)
      else outcome latest { mapper with httpBuf := mapper.httpBuf ++ bytes } env conn [] := by
  subst whole
  have waits (incomplete : ∀ arrived, mapper.httpBuf <+: arrived → arrived <+: mapper.httpBuf ++ chunks.flatten →
      httpResponseComplete arrived = false) :
      outcome latest mapper env conn chunks =
        outcome latest { mapper with httpBuf := mapper.httpBuf ++ chunks.flatten } env conn [] :=
    outcome_open active short incomplete
  rcases uniform with incomplete | ⟨text, decoded, known⟩
  · rw [if_neg (Bool.eq_false_iff.mp (incomplete _ (List.prefix_append _ _) List.prefix_rfl)), waits incomplete]
  · by_cases complete : httpResponseComplete (mapper.httpBuf ++ chunks.flatten) = true
    · rw [if_pos complete]
      cases chunks with
      | nil =>
        rw [List.flatten_nil, List.append_nil] at complete decoded ⊢
        exact outcome_complete_nil active ((parse_complete_iff complete decoded).mpr (known rfl))
      | cons chunk rest => exact outcome_text active fresh short (Option.isSome_of_mem decoded) complete
    · rw [if_neg complete]
      refine waits (fun arrived _ later => Bool.eq_false_iff.mpr (fun early => complete ?_))
      obtain ⟨more, same⟩ := later
      rw [← same]
      exact (complete_append early (by rw [same]; exact Option.isSome_of_mem decoded)).1

/-- The response is not taken for the end of the stream. -/
theorem verdictOf_ne {result : Checked (PortMapper × List PortMapAction)}
    (settles : Checked.Settles mapper env conn result) (connects : env.tcp.isSome) :
    verdictOf result ≠ .ok (mapper.ladderFailed env).verdict := by
  intro same
  cases ended : result with
  | error panic =>
    rw [ended] at same
    cases same
  | ok next =>
    rw [ended] at same
    exact (settles next.1 next.2 ended).2 connects (Except.ok.inj same)

/-- A host that reaches its gateway over TCP, at the start of its clock. -/
def freshEnv (conn : TcpId) : PortMapEnv := ⟨0, [], [], some (conn + 1)⟩

/-- A response that is over early, but not read at the end of the stream. -/
theorem uniform_of_outcomes (active : mapper.phase.conn = some conn) {bytes : List UInt8}
    (short : (mapper.httpBuf ++ bytes).length ≤ maxHttpResponse)
    (agree : ∀ chunks others : List (List UInt8), chunks.flatten = bytes → others.flatten = bytes →
      outcome longestWait mapper (freshEnv conn) conn chunks = outcome longestWait mapper (freshEnv conn) conn others) :
    Uniform mapper bytes := by
  have fresh : (freshEnv conn).tcp ≠ some conn := fun same => Nat.succ_ne_self conn (Option.some.inj same)
  have timely : (freshEnv conn).now + longestWait ≤ longestWait := Nat.le_of_eq (Nat.zero_add _)
  by_contra mixed
  rw [Uniform, not_or] at mixed
  obtain ⟨early, unread⟩ := mixed
  simp only [not_forall, Bool.not_eq_false] at early
  obtain ⟨arrived, ⟨chunk, rfl⟩, ⟨rest, split⟩, complete⟩ := early
  rw [List.append_assoc] at split
  have whole : bytes = chunk ++ rest := (List.append_cancel_left split).symm
  have shorter : (mapper.httpBuf ++ chunk).length ≤ maxHttpResponse := by
    rw [whole, List.length_append, List.length_append] at short
    rw [List.length_append]
    omega
  have settles : Checked.Settles mapper (freshEnv conn) conn
      (Checked.finishHttp longestWait { mapper with httpBuf := mapper.httpBuf ++ chunk } (freshEnv conn)) :=
    Checked.settles_finishHttp active fresh _
  have decided (rest : List (List UInt8)) : outcome longestWait mapper (freshEnv conn) conn (chunk :: rest) =
      verdictOf (Checked.finishHttp longestWait { mapper with httpBuf := mapper.httpBuf ++ chunk } (freshEnv conn)) :=
    outcome_complete active fresh shorter complete rest
  suffices given : ∃ chunks others : List (List UInt8), (chunk :: chunks).flatten = bytes ∧ others.flatten = bytes ∧
      outcome longestWait mapper (freshEnv conn) conn others =
        .ok (mapper.ladderFailed (freshEnv conn)).verdict by
    obtain ⟨chunks, others, same, same', failed⟩ := given
    exact verdictOf_ne settles rfl ((decided chunks).symm.trans ((agree _ _ same same').trans failed))
  cases decoded : Utf8.decode (mapper.httpBuf ++ bytes) with
  | none =>
    have pending : httpResponseComplete (mapper.httpBuf ++ bytes) = false := by rw [httpResponseComplete, decoded]
    have unparsed : parseHttpResponseChecked (mapper.httpBuf ++ bytes) = .ok none := by
      rw [parseHttpResponseChecked, decoded]
      rfl
    refine ⟨[rest], [bytes], by simp [whole], by simp, ?_⟩
    exact (outcome_incomplete active short pending []).trans (outcome_unparsed timely active unparsed)
  | some text =>
    obtain ⟨empty, unknown⟩ := Classical.not_imp.mp (fun known => unread ⟨text, decoded, known⟩)
    subst empty
    obtain ⟨rfl, rfl⟩ := List.append_eq_nil_iff.mp whole.symm
    have unparsed : parseHttpResponseChecked (mapper.httpBuf ++ []) = .ok none := by
      by_contra parsed
      exact unknown ((parse_complete_iff complete decoded).mp parsed)
    refine ⟨[], [], rfl, rfl, ?_⟩
    rw [List.append_nil] at unparsed
    exact outcome_unparsed timely active unparsed

/-- Any two ways to split the response end alike, exactly if its pieces do not tell. -/
theorem chunks_agree_iff (active : mapper.phase.conn = some conn) (bytes : List UInt8)
    (short : (mapper.httpBuf ++ bytes).length ≤ maxHttpResponse) :
    (∀ (latest : Instant) (env : PortMapEnv), env.now + longestWait ≤ latest → env.tcp ≠ some conn →
      ∀ chunks others : List (List UInt8), chunks.flatten = bytes → others.flatten = bytes →
        outcome latest mapper env conn chunks = outcome latest mapper env conn others) ↔ Uniform mapper bytes := by
  constructor
  · intro agree
    exact uniform_of_outcomes active short (agree longestWait (freshEnv conn) (Nat.le_of_eq (Nat.zero_add _))
      (fun same => Nat.succ_ne_self conn (Option.some.inj same)))
  · intro uniform latest env _ fresh chunks others whole whole'
    rw [outcome_of_uniform active fresh short uniform whole, outcome_of_uniform active fresh short uniform whole']

/-! A byte after the body. -/

/-- A description is being fetched over connection 7. -/
def describing : PortMapper :=
  { PortMapper.new PortMapper.homeConfig ⟨1, [], []⟩ 0 with
    phase := .upnpDescribe 7 (fromSecs 4)
    socket := some 0
    httpEndpoint := some ⟨.v4 0xC0A80001, 80⟩
    describePath := "/d.xml".toList }

def description : List UInt8 :=
  PortMapper.ascii "HTTP/1.1 200 OK\r\nContent-Length: 72\r\n\r\n" ++
    PortMapper.ascii "urn:schemas-upnp-org:service:WANIPConnection:<controlURL>/c</controlURL>"

theorem uniform_description : Uniform describing description :=
  .inr ⟨description.map (fun b => .ofNat b.toNat), by decide +kernel, fun empty => absurd empty (by decide +kernel)⟩

/-- The headers by themselves, or all at once. -/
theorem description_agrees :
    outcome longestWait describing (freshEnv 7) 7 [description.take 39, description.drop 39] =
      outcome longestWait describing (freshEnv 7) 7 [description] :=
  (chunks_agree_iff rfl description (by decide +kernel)).mpr uniform_description longestWait (freshEnv 7)
    (Nat.le_of_eq (Nat.zero_add _)) (by decide) _ _
    (by rw [List.flatten_cons, List.flatten_singleton, List.take_append_drop]) (List.append_nil _)

/-- The description is used if the byte comes by itself. -/
theorem byte_after_body_tells :
    ¬ ∀ chunks others : List (List UInt8), chunks.flatten = description ++ [0xFF] →
      others.flatten = description ++ [0xFF] →
        outcome longestWait describing (freshEnv 7) 7 chunks = outcome longestWait describing (freshEnv 7) 7 others :=
  fun agree => absurd (agree [description, [0xFF]] [description ++ [0xFF]] rfl (List.append_nil _))
    (by decide +kernel)

end Lightbringer.Overlay.PortMap
