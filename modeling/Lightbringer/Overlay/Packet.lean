import Lightbringer.Lib.Serde
import Lightbringer.Overlay.Signing
import Lightbringer.Overlay.Punch

/-!
# Frames on the wire

`overlay/packet.rs`: a version, a frame type and a body, which is the raw shred or the `bincode` of the frame's fields;
and the raw probes of `overlay/punch.rs`. The body of a shred runs to the end of the datagram. The fields of the other
frames say themselves where they end, and what follows them is not looked at.
-/

namespace Lightbringer.Overlay
open Bincode

/-! ### The fields -/

def signatureLength : Nat := 64

instance : Serde Pubkey := Serde.octets 32

instance : Serde (BitVec 32) := Serde.octets 4

instance : Serde (BitVec 128) := Serde.octets 16

instance : Serde IpAddr :=
  Serde.via
    (fun
      | .inl octets => IpAddr.v4 octets
      | .inr octets => IpAddr.v6 octets)
    (fun
      | .v4 octets => Sum.inl octets
      | .v6 octets => Sum.inr octets)
    (fun ip => by cases ip <;> rfl) (fun octets => by cases octets <;> rfl)

instance : Serde SocketAddr :=
  Serde.via (fun pair : IpAddr × UInt16 => ⟨pair.1, pair.2⟩) (fun addr => (addr.ip, addr.port)) (fun _ => rfl)
    (fun _ => rfl)

instance : Serde NatClass :=
  Serde.enumeration 4
    (fun
      | .publicHost => 0
      | .endpointIndependent => 1
      | .portDependent => 2
      | .symmetric => 3)
    (fun _ => [])
    (fun
      | 0 => return .publicHost
      | 1 => return .endpointIndependent
      | 2 => return .portDependent
      | 3 => return .symmetric
      | _ => failure)
    (fun natClass => by cases natClass <;> decide)
    (by
      intro n raw natClass rest
      rcases n with _ | _ | _ | _ | n <;> cases natClass <;> simp [Decoder.pure_iff, Decoder.failure_iff])

instance : Serde AllocatorProfile :=
  Serde.enumeration 4
    (fun
      | .preserving => 0
      | .sequential _ => 1
      | .random => 2)
    (fun
      | .sequential stride => Serde.bytes stride
      | _ => [])
    (fun
      | 0 => return .preserving
      | 1 => AllocatorProfile.sequential <$> Serde.read
      | 2 => return .random
      | _ => failure)
    (fun allocator => by split <;> decide)
    (by
      intro n raw allocator rest
      rcases n with _ | _ | _ | n <;> cases allocator <;>
        simp [Decoder.pure_iff, Decoder.failure_iff, Decoder.map_iff, Serde.reads])

instance : Serde NatProfile :=
  Serde.via
    (fun fields : Option NatClass × Option AllocatorProfile × Bool × Option IpAddr =>
      ⟨fields.1, fields.2.1, fields.2.2.1, fields.2.2.2⟩)
    (fun profile => (profile.natClass, profile.allocator, profile.birthdayPunch, profile.generation)) (fun _ => rfl)
    (fun _ => rfl)

instance : Serde Candidates := Serde.arrayVec maxPunchCandidates (by decide)

instance : Serde Signaling :=
  Serde.via
    (fun fields : UInt64 × Pubkey × Pubkey × Candidates × NatProfile =>
      ⟨fields.1, fields.2.1, fields.2.2.1, fields.2.2.2.1, fields.2.2.2.2⟩)
    (fun content => (content.nonce, content.origin, content.target, content.candidates, content.natProfile))
    (fun _ => rfl) (fun _ => rfl)

/-- The bytes of a signature, of which there are always 64. -/
abbrev SignatureArray := { signature : Signature // signature.length = signatureLength }

/-- A request as it can be written: its signature has the length of one. -/
abbrev WireRequest := { request : ConnectRequest // request.signature.length = signatureLength }

abbrev WireResponse := { response : ConnectResponse // response.signature.length = signatureLength }

abbrev WireProbe := { probe : PunchProbe // probe.signature.length = signatureLength }

instance : Serde WireRequest :=
  Serde.via (fun fields : Signaling × SignatureArray => ⟨⟨fields.1, fields.2.val⟩, fields.2.property⟩)
    (fun request => (request.val.toSignaling, ⟨request.val.signature, request.property⟩)) (fun _ => rfl) (fun _ => rfl)

instance : Serde WireResponse :=
  Serde.via (fun fields : Signaling × SignatureArray => ⟨⟨fields.1, fields.2.val⟩, fields.2.property⟩)
    (fun response => (response.val.toSignaling, ⟨response.val.signature, response.property⟩)) (fun _ => rfl)
    (fun _ => rfl)

instance : Serde WireProbe :=
  Serde.via (fun fields : UInt64 × Pubkey × SignatureArray => ⟨⟨fields.1, fields.2.1, fields.2.2.val⟩, fields.2.2.property⟩)
    (fun probe => (probe.val.nonce, probe.val.origin, ⟨probe.val.signature, probe.property⟩)) (fun _ => rfl) (fun _ => rfl)

instance : Serde PunchAssistKind :=
  Serde.via
    (fun
      | .inl () => .samePortObservation
      | .inr () => .sequentialBracket)
    (fun
      | .samePortObservation => Sum.inl ()
      | .sequentialBracket => Sum.inr ())
    (fun kind => by cases kind <;> rfl) (fun kind => by cases kind <;> rfl)

/-! ### Adverts -/

abbrev WireReachability := { reachability : Reachability // reachability.Fits }

abbrev AdvertAddrs := ArrayVec SocketAddr maxAdvertAddrs

abbrev AdvertObserved := ArrayVec (UInt16 × SocketAddr) maxAdvertAddrs

abbrev AdvertVia := ArrayVec Pubkey maxAdvertVia

instance : Serde AdvertAddrs := Serde.arrayVec maxAdvertAddrs (by decide)

instance : Serde AdvertObserved := Serde.arrayVec maxAdvertAddrs (by decide)

instance : Serde AdvertVia := Serde.arrayVec maxAdvertVia (by decide)

instance : Serde WireReachability :=
  Serde.via
    (fun
      | .inl addrs => ⟨.direct addrs.items, addrs.fits⟩
      | .inr (observed, via) => ⟨.coordinated observed.items via.items, observed.fits, via.fits⟩)
    (fun
      | ⟨.direct addrs, fits⟩ => (.inl ⟨addrs, fits⟩ : AdvertAddrs ⊕ AdvertObserved × AdvertVia)
      | ⟨.coordinated observed via, fits⟩ => .inr (⟨observed, fits.1⟩, ⟨via, fits.2⟩))
    (fun reachability => by obtain ⟨_ | _, _⟩ := reachability <;> rfl)
    (fun lists => by obtain _ | ⟨_, _⟩ := lists <;> rfl)

instance : Serde RepairEndpoint :=
  Serde.via
    (fun
      | .inl addr => .udp addr
      | .inr () => .inConnection)
    (fun
      | .udp addr => Sum.inl addr
      | .inConnection => Sum.inr ())
    (fun endpoint => by cases endpoint <;> rfl) (fun endpoint => by cases endpoint <;> rfl)

/-- An advert as it can be written. -/
def SignedPeerAdvert.Fits (signed : SignedPeerAdvert) : Prop :=
  signed.advert.reachability.Fits ∧ signed.signature.length = signatureLength

abbrev WireAdvert := { signed : SignedPeerAdvert // signed.Fits }

instance : Serde WireAdvert :=
  Serde.via
    (fun fields : Pubkey × UInt64 × UInt32 × WireReachability × RepairEndpoint × SignatureArray =>
      match fields with
      | (pubkey, advertSeq, ttlMs, reachability, repair, signature) =>
        ⟨⟨⟨pubkey, advertSeq, ttlMs, reachability.val, repair⟩, signature.val⟩, reachability.property, signature.property⟩)
    (fun signed =>
      (signed.val.advert.pubkey, signed.val.advert.advertSeq, signed.val.advert.ttlMs,
        ⟨signed.val.advert.reachability, signed.property.1⟩, signed.val.advert.repair,
        ⟨signed.val.signature, signed.property.2⟩))
    (fun _ => rfl) (fun _ => rfl)

/-! ### Frames -/

namespace Packet

@[match_pattern] abbrev frameShred : UInt8 := 0
@[match_pattern] abbrev framePeerAdvertisement : UInt8 := 1
@[match_pattern] abbrev frameAddressObservation : UInt8 := 2
@[match_pattern] abbrev frameDialbackRequest : UInt8 := 3
@[match_pattern] abbrev frameDialbackResult : UInt8 := 4
@[match_pattern] abbrev frameConnectRequest : UInt8 := 5
@[match_pattern] abbrev frameConnectResponse : UInt8 := 6
@[match_pattern] abbrev framePunchAssist : UInt8 := 7
@[match_pattern] abbrev framePunchObservation : UInt8 := 8
@[match_pattern] abbrev framePunchBracket : UInt8 := 9
@[match_pattern] abbrev framePunchBirthday : UInt8 := 10

/-- `OverlayFrame`, with the fields of every variant. -/
inductive OverlayFrame where
  | shred (payload : List UInt8)
  | peerAdvertisement (advert : WireAdvert)
  | addressObservation (observed : SocketAddr)
  | dialBackRequest (nonce : UInt64) (probePort : Option UInt16)
  | dialBackResult (nonce : UInt64) (ok : Bool)
  | connectRequest (request : WireRequest)
  | connectResponse (response : WireResponse)
  | punchAssist (nonce : UInt64) (origin target : Pubkey) (port : UInt16) (kind : PunchAssistKind)
  | punchObservation (nonce : UInt64) (origin target : Pubkey) (observed : SocketAddr)
  | punchBracket (nonce : UInt64) (origin target : Pubkey) (ip : IpAddr) (start stop : UInt16)
  | punchBirthday (nonce : UInt64) (origin target : Pubkey)

/-- An error text of the overlay's own, or one of `bincode`'s. -/
inductive PacketError where
  | anyhow (message : String)
  | bincode

/-- `bincode::deserialize(body)?`. -/
def fields {α : Type} [Serde α] (body : List UInt8) : Except PacketError α :=
  match deserialize body with
  | some a => .ok a
  | none => .error .bincode

namespace OverlayFrame

def encode : OverlayFrame → Except PacketError (List UInt8)
  | shred payload => .ok ([overlayProtocolVersion, frameShred] ++ payload)
  | peerAdvertisement advert => serializeInto [overlayProtocolVersion, framePeerAdvertisement] advert
  | addressObservation observed => serializeInto [overlayProtocolVersion, frameAddressObservation] observed
  | dialBackRequest nonce probePort =>
    serializeInto [overlayProtocolVersion, frameDialbackRequest] (nonce, probePort)
  | dialBackResult nonce ok => serializeInto [overlayProtocolVersion, frameDialbackResult] (nonce, ok)
  | connectRequest request => serializeInto [overlayProtocolVersion, frameConnectRequest] request
  | connectResponse response => serializeInto [overlayProtocolVersion, frameConnectResponse] response
  | punchAssist nonce origin target port kind =>
    serializeInto [overlayProtocolVersion, framePunchAssist] (nonce, origin, target, port, kind)
  | punchObservation nonce origin target observed =>
    serializeInto [overlayProtocolVersion, framePunchObservation] (nonce, origin, target, observed)
  | punchBracket nonce origin target ip start stop =>
    serializeInto [overlayProtocolVersion, framePunchBracket] (nonce, origin, target, ip, start, stop)
  | punchBirthday nonce origin target =>
    serializeInto [overlayProtocolVersion, framePunchBirthday] (nonce, origin, target)

def decode (raw : List UInt8) : Except PacketError OverlayFrame :=
  match raw with
  | version :: frameType :: body =>
    if version ≠ overlayProtocolVersion then
      .error (.anyhow ("unsupported overlay protocol version " ++ toString version))
    else
      match frameType with
      | frameShred => .ok (shred body)
      | framePeerAdvertisement => do return peerAdvertisement (← fields body)
      | frameAddressObservation => do return addressObservation (← fields body)
      | frameDialbackRequest => do
        let (nonce, probePort) ← fields body
        return dialBackRequest nonce probePort
      | frameDialbackResult => do
        let (nonce, ok) ← fields body
        return dialBackResult nonce ok
      | frameConnectRequest => do return connectRequest (← fields body)
      | frameConnectResponse => do return connectResponse (← fields body)
      | framePunchAssist => do
        let (nonce, origin, target, port, kind) ← fields body
        return punchAssist nonce origin target port kind
      | framePunchObservation => do
        let (nonce, origin, target, observed) ← fields body
        return punchObservation nonce origin target observed
      | framePunchBracket => do
        let (nonce, origin, target, ip, start, stop) ← fields body
        return punchBracket nonce origin target ip start stop
      | framePunchBirthday => do
        let (nonce, origin, target) ← fields body
        return punchBirthday nonce origin target
      | other => .error (.anyhow ("unknown overlay frame type " ++ toString other))
  | _ => .error (.anyhow ("truncated overlay frame (" ++ toString raw.length ++ " bytes)"))

end OverlayFrame

/-! ### Raw probes -/

/-- The first byte has QUIC's fixed bit clear. -/
def punchProbeMagic : List UInt8 := [0x21, 0x4C, 0x42, 0x50]

def punchProbeVersion : UInt8 := 1

def encodeProbe (probe : WireProbe) : Except PacketError (List UInt8) :=
  serializeInto (punchProbeMagic ++ [punchProbeVersion]) probe

def decodeProbe (raw : List UInt8) : Except PacketError WireProbe :=
  if raw.length < punchProbeMagic.length + 1 ∨ raw.take punchProbeMagic.length ≠ punchProbeMagic then
    .error (.anyhow "not a Lightbringer punch probe")
  else if raw[punchProbeMagic.length]? ≠ some punchProbeVersion then
    .error (.anyhow "unsupported punch probe version")
  else fields (raw.drop (punchProbeMagic.length + 1))

def looksLikeProbe (raw : List UInt8) : Bool :=
  punchProbeMagic.length ≤ raw.length ∧ raw.take punchProbeMagic.length = punchProbeMagic

end Packet

end Lightbringer.Overlay
