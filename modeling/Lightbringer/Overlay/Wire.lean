import Lightbringer.Overlay.Packet

/-!
# What goes over the wire comes back

Every frame and every raw probe is read back as it was written. The other way round, a datagram is the encoding of the
frame it is read as only if nothing follows the fields of that frame.
-/

namespace Lightbringer.Overlay.Packet
open Bincode

/-! ### Fields -/

theorem fields_append {α : Type} [Serde α] (a : α) (rest : List UInt8) : fields (serialize a ++ rest) = .ok a := by
  rw [fields, deserialize_iff.mpr ⟨rest, rfl⟩]

theorem fields_bind_iff {α : Type} [Serde α] {body : List UInt8} {next : α → Except PacketError OverlayFrame}
    {frame : OverlayFrame} :
    (fields body >>= next) = .ok frame ↔ ∃ a rest, body = serialize a ++ rest ∧ next a = .ok frame := by
  constructor
  · intro decoded
    unfold fields at decoded
    split at decoded
    next a here =>
      obtain ⟨rest, rfl⟩ := deserialize_iff.mp here
      exact ⟨a, rest, rfl, decoded⟩
    next => nomatch decoded
  · rintro ⟨a, rest, rfl, decoded⟩
    rw [fields_append]
    exact decoded

namespace OverlayFrame

/-! ### What a frame is written as -/

def frameType : OverlayFrame → UInt8
  | shred _ => frameShred
  | peerAdvertisement _ => framePeerAdvertisement
  | addressObservation _ => frameAddressObservation
  | dialBackRequest _ _ => frameDialbackRequest
  | dialBackResult _ _ => frameDialbackResult
  | connectRequest _ => frameConnectRequest
  | connectResponse _ => frameConnectResponse
  | punchAssist _ _ _ _ _ => framePunchAssist
  | punchObservation _ _ _ _ => framePunchObservation
  | punchBracket _ _ _ _ _ _ => framePunchBracket
  | punchBirthday _ _ _ => framePunchBirthday

def body : OverlayFrame → List UInt8
  | shred payload => payload
  | peerAdvertisement advert => serialize advert
  | addressObservation observed => serialize observed
  | dialBackRequest nonce probePort => serialize (nonce, probePort)
  | dialBackResult nonce ok => serialize (nonce, ok)
  | connectRequest request => serialize request
  | connectResponse response => serialize response
  | punchAssist nonce origin target port kind => serialize (nonce, origin, target, port, kind)
  | punchObservation nonce origin target observed => serialize (nonce, origin, target, observed)
  | punchBracket nonce origin target ip start stop => serialize (nonce, origin, target, ip, start, stop)
  | punchBirthday nonce origin target => serialize (nonce, origin, target)

theorem encode_eq (frame : OverlayFrame) :
    frame.encode = .ok (overlayProtocolVersion :: frame.frameType :: frame.body) := by
  cases frame <;> rfl

/-- Anything may follow the fields of a frame, but a shred ends with the datagram. -/
theorem decode_append (frame : OverlayFrame) (rest : List UInt8) (last : frame.frameType = frameShred → rest = []) :
    decode (overlayProtocolVersion :: frame.frameType :: (frame.body ++ rest)) = .ok frame := by
  cases frame
  case shred payload =>
    rw [last rfl, List.append_nil]
    rfl
  all_goals exact fields_bind_iff.mpr ⟨_, rest, rfl, rfl⟩

theorem decode_iff {raw : List UInt8} {frame : OverlayFrame} :
    decode raw = .ok frame ↔ ∃ rest, raw = overlayProtocolVersion :: frame.frameType :: (frame.body ++ rest) ∧
      (frame.frameType = frameShred → rest = []) := by
  constructor
  · intro decoded
    unfold decode at decoded
    split at decoded
    next version frameType body =>
      split at decoded
      · cases decoded
      next same =>
        obtain rfl : version = overlayProtocolVersion := Decidable.not_not.mp same
        split at decoded
        case h_1 =>
          cases decoded
          exact ⟨[], congrArg _ (congrArg _ (List.append_nil body).symm), fun _ => rfl⟩
        case h_12 => cases decoded
        case h_4 | h_5 =>
          obtain ⟨⟨nonce, answer⟩, rest, here, made⟩ := fields_bind_iff.mp decoded
          cases made
          exact ⟨rest, congrArg (fun body => overlayProtocolVersion :: _ :: body) here, nofun⟩
        case h_8 =>
          obtain ⟨⟨nonce, origin, target, port, kind⟩, rest, here, made⟩ := fields_bind_iff.mp decoded
          cases made
          exact ⟨rest, congrArg (fun body => overlayProtocolVersion :: _ :: body) here, nofun⟩
        case h_9 =>
          obtain ⟨⟨nonce, origin, target, observed⟩, rest, here, made⟩ := fields_bind_iff.mp decoded
          cases made
          exact ⟨rest, congrArg (fun body => overlayProtocolVersion :: _ :: body) here, nofun⟩
        case h_10 =>
          obtain ⟨⟨nonce, origin, target, ip, start, stop⟩, rest, here, made⟩ := fields_bind_iff.mp decoded
          cases made
          exact ⟨rest, congrArg (fun body => overlayProtocolVersion :: _ :: body) here, nofun⟩
        case h_11 =>
          obtain ⟨⟨nonce, origin, target⟩, rest, here, made⟩ := fields_bind_iff.mp decoded
          cases made
          exact ⟨rest, congrArg (fun body => overlayProtocolVersion :: _ :: body) here, nofun⟩
        all_goals
          obtain ⟨content, rest, here, made⟩ := fields_bind_iff.mp decoded
          cases made
          exact ⟨rest, congrArg (fun body => overlayProtocolVersion :: _ :: body) here, nofun⟩
    next => cases decoded
  · rintro ⟨rest, rfl, last⟩
    exact decode_append frame _ last

/-! ### What follows the fields -/

/-- The bytes of the datagram past the last field of its kind. -/
def trailing (raw : List UInt8) : List UInt8 :=
  match raw with
  | _ :: frameType :: body =>
    match frameType with
    | framePeerAdvertisement => unread WireAdvert body
    | frameAddressObservation => unread SocketAddr body
    | frameDialbackRequest => unread (UInt64 × Option UInt16) body
    | frameDialbackResult => unread (UInt64 × Bool) body
    | frameConnectRequest => unread WireRequest body
    | frameConnectResponse => unread WireResponse body
    | framePunchAssist => unread (UInt64 × Pubkey × Pubkey × UInt16 × PunchAssistKind) body
    | framePunchObservation => unread (UInt64 × Pubkey × Pubkey × SocketAddr) body
    | framePunchBracket => unread (UInt64 × Pubkey × Pubkey × IpAddr × UInt16 × UInt16) body
    | framePunchBirthday => unread (UInt64 × Pubkey × Pubkey) body
    | _ => []
  | _ => []

theorem trailing_append (frame : OverlayFrame) {rest : List UInt8} (last : frame.frameType = frameShred → rest = []) :
    trailing (overlayProtocolVersion :: frame.frameType :: (frame.body ++ rest)) = rest := by
  cases frame
  case shred payload =>
    rw [last rfl]
    rfl
  all_goals exact unread_append _ rest

/-- A datagram is the encoding of the frame it is read as exactly if it ends with the frame's last field. -/
theorem frame_canonical_iff {raw : List UInt8} {frame : OverlayFrame} (accepted : decode raw = .ok frame) :
    frame.encode = .ok raw ↔ trailing raw = [] := by
  obtain ⟨rest, rfl, last⟩ := decode_iff.mp accepted
  rw [trailing_append frame last, encode_eq, Except.ok.injEq, List.cons.injEq, List.cons.injEq]
  constructor
  · rintro ⟨_, _, same⟩
    exact List.self_eq_append_right.mp same
  · rintro rfl
    exact ⟨rfl, rfl, (List.append_nil _).symm⟩

/-- A dial-back verdict as it is sent. -/
def verdict : List UInt8 := [1, 4, 7, 0, 0, 0, 0, 0, 0, 0, 1]

theorem verdict_decoded (rest : List UInt8) : decode (verdict ++ rest) = .ok (dialBackResult 7 true) :=
  decode_append (dialBackResult 7 true) _ nofun

/-- It is canonical as it is sent, and not with a byte more. -/
theorem verdict_canonical :
    (dialBackResult 7 true).encode = .ok verdict ∧ (dialBackResult 7 true).encode ≠ .ok (verdict ++ [0]) :=
  ⟨(frame_canonical_iff (verdict_decoded [])).mpr (by decide),
    fun padded => absurd ((frame_canonical_iff (verdict_decoded [0])).mp padded) (by decide)⟩

/-- A byte more, and the frame is the same. -/
theorem padded_verdict_accepted :
    ¬ ∀ raw frame, decode raw = .ok frame → frame.encode = .ok raw := by
  intro claim
  have same := claim (verdict ++ [0]) (dialBackResult 7 true) (verdict_decoded [0])
  exact absurd (Except.ok.inj same) (by decide)

/-! ### There and back -/

theorem decodeProbe_encodeProbe (probe : WireProbe) {raw : List UInt8} (written : encodeProbe probe = .ok raw) :
    decodeProbe raw = .ok probe := by
  obtain rfl := Except.ok.inj written
  have size : ¬ (punchProbeMagic ++ [punchProbeVersion] ++ serialize probe).length < punchProbeMagic.length + 1 := by
    simp only [List.length_append, List.length_singleton]
    omega
  rw [decodeProbe, if_neg (not_or.mpr ⟨size, fun other => other rfl⟩), if_neg (fun other => other rfl)]
  have tail := fields_append probe []
  rwa [List.append_nil] at tail

/-- Every frame and every probe can be written and is read back as it was; a probe is told from QUIC by its first byte. -/
theorem wire_round_trip :
    (∀ frame : OverlayFrame, ∃ raw, frame.encode = .ok raw ∧ decode raw = .ok frame) ∧
      ∀ probe : WireProbe, ∃ raw, encodeProbe probe = .ok raw ∧ decodeProbe raw = .ok probe ∧
        looksLikeProbe raw = true ∧ ∃ first, raw.head? = some first ∧ first &&& 0x40 = 0 := by
  constructor
  · intro frame
    have read := decode_append frame [] (fun _ => rfl)
    rw [List.append_nil] at read
    exact ⟨_, encode_eq frame, read⟩
  · intro probe
    refine ⟨_, rfl, decodeProbe_encodeProbe probe rfl, ?_, 0x21, rfl, by decide⟩
    rw [looksLikeProbe, decide_eq_true_eq]
    refine ⟨?_, rfl⟩
    simp only [List.length_append]
    omega

end OverlayFrame

/-! ### The bytes the other modules speak of -/

theorem bytes_ipAddr (ip : IpAddr) : Serde.bytes ip = ipAddrBytes ip := by
  cases ip <;> rfl

theorem bytes_socketAddr (addr : SocketAddr) : Serde.bytes addr = socketAddrBytes addr :=
  congrArg (· ++ fixed 2 addr.port.toNat) (bytes_ipAddr addr.ip)

theorem bytes_option {α : Type} [Serde α] (bytes : α → List UInt8) (each : ∀ a, Serde.bytes a = bytes a) (a : Option α) :
    Serde.bytes a = optionBytes bytes a := by
  cases a with
  | none => rfl
  | some a => exact congrArg (fixed 1 1 ++ ·) (each a)

theorem bytes_list {α : Type} [Serde α] (bytes : α → List UInt8) (each : ∀ a, Serde.bytes a = bytes a) (items : List α) :
    fixed 8 items.length ++ items.flatMap Serde.bytes = listBytes bytes items := by
  rw [listBytes, funext each]

theorem bytes_natProfile (profile : NatProfile) : Serde.bytes profile = natProfileBytes profile := by
  have classes := bytes_option natClassBytes (fun natClass => by cases natClass <;> rfl) profile.natClass
  have allocators := bytes_option allocatorBytes (fun allocator => by cases allocator <;> rfl) profile.allocator
  have generations := bytes_option ipAddrBytes bytes_ipAddr profile.generation
  rw [natProfileBytes, ← classes, ← allocators, ← generations]
  simp only [List.append_assoc]
  rw [← List.append_nil (fixed 1 profile.birthdayPunch.toNat), List.append_assoc]
  rfl

/-- What is signed is what is sent before the signature. -/
theorem bytes_signaling (content : Signaling) : Serde.bytes content = signalingBytes content := by
  have candidates := bytes_list socketAddrBytes bytes_socketAddr content.candidates.items
  rw [signalingBytes, ← candidates, ← bytes_natProfile]
  simp only [List.append_assoc]
  rfl

theorem bytes_advert (signed : WireAdvert) : Serde.bytes signed = advertBytes signed.val.advert ++ signed.val.signature := by
  obtain ⟨⟨⟨pubkey, advertSeq, ttlMs, reachability, repair⟩, signature⟩, fits, sized⟩ := signed
  have reach : Serde.bytes (⟨reachability, fits⟩ : WireReachability) = reachabilityBytes reachability := by
    cases reachability with
    | direct addrs => exact congrArg (fixed 4 0 ++ ·) (bytes_list socketAddrBytes bytes_socketAddr addrs)
    | coordinated observed via =>
      have tagged := bytes_list taggedAddrBytes (fun pair => congrArg (fixed 2 pair.1.toNat ++ ·)
        (bytes_socketAddr pair.2)) observed
      rw [reachabilityBytes, List.append_assoc, ← tagged]
      rfl
  have endpoint : Serde.bytes repair = repairEndpointBytes repair := by
    cases repair with
    | udp addr => exact congrArg (fixed 4 0 ++ ·) (bytes_socketAddr addr)
    | inConnection => rfl
  rw [advertBytes, ← reach, ← endpoint]
  simp only [List.append_assoc]
  rfl

namespace OverlayFrame

/-- The frame as the hole-punching core has it. -/
def toPunch : OverlayFrame → Option PunchFrame
  | connectRequest request => some (.connectRequest request.val)
  | connectResponse response => some (.connectResponse response.val)
  | punchAssist nonce origin target port kind => some (.punchAssist nonce origin target port kind)
  | punchObservation nonce origin target observed => some (.punchObservation nonce origin target observed)
  | punchBracket nonce origin target ip start stop => some (.punchBracket nonce origin target ip start stop)
  | punchBirthday nonce origin target => some (.punchBirthday nonce origin target)
  | _ => none

theorem encode_toPunch {frame : OverlayFrame} {punch : PunchFrame} (kind : frame.toPunch = some punch) :
    frame.encode = .ok punch.encode := by
  rw [encode_eq, PunchFrame.encode, Except.ok.injEq, List.cons.injEq]
  refine ⟨rfl, ?_⟩
  cases frame <;> cases kind
  case connectRequest request =>
    exact congrArg (fun content => 5 :: (content ++ request.val.signature)) (bytes_signaling request.val.toSignaling)
  case connectResponse response =>
    exact congrArg (fun content => 6 :: (content ++ response.val.signature)) (bytes_signaling response.val.toSignaling)
  case punchAssist nonce origin target port kind =>
    have kinds : Serde.bytes kind = kind.bytes := by cases kind <;> rfl
    rw [PunchFrame.body, ← kinds]
    simp only [routeBytes, List.append_assoc, List.cons_append]
    rfl
  case punchObservation nonce origin target observed =>
    rw [PunchFrame.body, ← bytes_socketAddr]
    simp only [routeBytes, List.append_assoc, List.cons_append]
    rfl
  case punchBracket nonce origin target ip start stop =>
    rw [PunchFrame.body, ← bytes_ipAddr]
    simp only [routeBytes, List.append_assoc, List.cons_append]
    rfl
  case punchBirthday nonce origin target =>
    simp only [PunchFrame.body, routeBytes, List.append_assoc]
    rfl

end OverlayFrame

end Lightbringer.Overlay.Packet
