import Lightbringer.Overlay.AdvertFlood
import Lightbringer.Overlay.Discovery
import Lightbringer.Lib.ArrayVec
import Lightbringer.Lib.Bincode

/-!
# Signed messages

What an identity signs (`overlay/punch.rs`, `overlay/gossip.rs`): adverts, the requests and responses that set up a hole
punch, and raw probes. A signature is over bytes, and the bytes are the `bincode` of the message without its signature.
-/

namespace Lightbringer.Overlay
open Bincode

/-- Ed25519, of which only the interface is known here. -/
class Ed25519 where
  Keypair : Type
  pubkey : Keypair → Pubkey
  signMessage : Keypair → List UInt8 → Signature
  verify : Pubkey → List UInt8 → Signature → Bool
  verify_signMessage : ∀ keypair message, verify (pubkey keypair) message (signMessage keypair message) = true

/-! ### Messages -/

inductive AllocatorProfile where
  | preserving
  | sequential (stride : UInt16)
  | random
  deriving DecidableEq

def AllocatorProfile.isSequential : AllocatorProfile → Bool
  | .sequential _ => true
  | _ => false

structure NatProfile where
  natClass : Option NatClass
  allocator : Option AllocatorProfile
  birthdayPunch : Bool
  generation : Option IpAddr
  deriving DecidableEq

/-- `NatProfile::default`. -/
def NatProfile.unknown : NatProfile := ⟨none, none, false, none⟩

def maxPunchCandidates : Nat := 4

abbrev Candidates := ArrayVec SocketAddr maxPunchCandidates

/-- What requests and responses have in common: all but their kind and the signature. -/
structure Signaling where
  nonce : UInt64
  origin : Pubkey
  target : Pubkey
  candidates : Candidates
  natProfile : NatProfile
  deriving DecidableEq

structure ConnectRequest extends Signaling where
  signature : Signature
  deriving DecidableEq

structure ConnectResponse extends Signaling where
  signature : Signature
  deriving DecidableEq

structure PunchProbe where
  nonce : UInt64
  origin : Pubkey
  signature : Signature
  deriving DecidableEq

/-! ### What is signed -/

def pubkeyBytes (pubkey : Pubkey) : List UInt8 := Bytes.ofNat 32 pubkey.toNat

def listBytes {α : Type} (bytes : α → List UInt8) (items : List α) : List UInt8 :=
  fixed 8 items.length ++ items.flatMap bytes

def optionBytes {α : Type} (bytes : α → List UInt8) : Option α → List UInt8
  | none => fixed 1 0
  | some value => fixed 1 1 ++ bytes value

def ipAddrBytes : IpAddr → List UInt8
  | .v4 octets => fixed 4 0 ++ Bytes.ofNat 4 octets.toNat
  | .v6 octets => fixed 4 1 ++ Bytes.ofNat 16 octets.toNat

def socketAddrBytes (addr : SocketAddr) : List UInt8 := ipAddrBytes addr.ip ++ fixed 2 addr.port.toNat

def natClassBytes : NatClass → List UInt8
  | .publicHost => fixed 4 0
  | .endpointIndependent => fixed 4 1
  | .portDependent => fixed 4 2
  | .symmetric => fixed 4 3

def allocatorBytes : AllocatorProfile → List UInt8
  | .preserving => fixed 4 0
  | .sequential stride => fixed 4 1 ++ fixed 2 stride.toNat
  | .random => fixed 4 2

def natProfileBytes (profile : NatProfile) : List UInt8 :=
  optionBytes natClassBytes profile.natClass ++ optionBytes allocatorBytes profile.allocator ++
    fixed 1 profile.birthdayPunch.toNat ++ optionBytes ipAddrBytes profile.generation

def signalingBytes (content : Signaling) : List UInt8 :=
  fixed 8 content.nonce.toNat ++ pubkeyBytes content.origin ++ pubkeyBytes content.target ++
    listBytes socketAddrBytes content.candidates.items ++ natProfileBytes content.natProfile

def requestSigningBytes (content : Signaling) : List UInt8 := signalingBytes content

def responseSigningBytes (content : Signaling) : List UInt8 := signalingBytes content

def probeSigningBytes (nonce : UInt64) (origin : Pubkey) : List UInt8 := fixed 8 nonce.toNat ++ pubkeyBytes origin

def taggedAddrBytes (tagged : UInt16 × SocketAddr) : List UInt8 := fixed 2 tagged.1.toNat ++ socketAddrBytes tagged.2

def reachabilityBytes : Reachability → List UInt8
  | .direct addrs => fixed 4 0 ++ listBytes socketAddrBytes addrs
  | .coordinated observed via => fixed 4 1 ++ listBytes taggedAddrBytes observed ++ listBytes pubkeyBytes via

def repairEndpointBytes : RepairEndpoint → List UInt8
  | .udp addr => fixed 4 0 ++ socketAddrBytes addr
  | .inConnection => fixed 4 1

def advertBytes (advert : PeerAdvert) : List UInt8 :=
  pubkeyBytes advert.pubkey ++ fixed 8 advert.advertSeq.toNat ++ fixed 4 advert.ttlMs.toNat ++
    reachabilityBytes advert.reachability ++ repairEndpointBytes advert.repair

section

variable [Ed25519]

/-! ### Signing and verifying -/

def SignedPeerAdvert.sign (advert : PeerAdvert) (keypair : Ed25519.Keypair) : SignedPeerAdvert :=
  ⟨advert, Ed25519.signMessage keypair (advertBytes advert)⟩

def SignedPeerAdvert.verify (signed : SignedPeerAdvert) : Bool :=
  Ed25519.verify signed.advert.pubkey (advertBytes signed.advert) signed.signature

instance : AdvertSignature := ⟨SignedPeerAdvert.verify⟩

/-- The content of a request or response of the given key. -/
def Signaling.own (nonce : UInt64) (target : Pubkey) (candidates : Candidates) (natProfile : NatProfile)
    (keypair : Ed25519.Keypair) : Signaling :=
  ⟨nonce, Ed25519.pubkey keypair, target, candidates, natProfile⟩

def ConnectRequest.sign (nonce : UInt64) (target : Pubkey) (candidates : Candidates) (natProfile : NatProfile)
    (keypair : Ed25519.Keypair) : ConnectRequest :=
  let content := Signaling.own nonce target candidates natProfile keypair
  ⟨content, Ed25519.signMessage keypair (requestSigningBytes content)⟩

def ConnectRequest.verify (request : ConnectRequest) : Bool :=
  Ed25519.verify request.origin (requestSigningBytes request.toSignaling) request.signature

def ConnectResponse.sign (nonce : UInt64) (target : Pubkey) (candidates : Candidates) (natProfile : NatProfile)
    (keypair : Ed25519.Keypair) : ConnectResponse :=
  let content := Signaling.own nonce target candidates natProfile keypair
  ⟨content, Ed25519.signMessage keypair (responseSigningBytes content)⟩

def ConnectResponse.verify (response : ConnectResponse) : Bool :=
  Ed25519.verify response.origin (responseSigningBytes response.toSignaling) response.signature

def PunchProbe.sign (nonce : UInt64) (keypair : Ed25519.Keypair) : PunchProbe :=
  let origin := Ed25519.pubkey keypair
  ⟨nonce, origin, Ed25519.signMessage keypair (probeSigningBytes nonce origin)⟩

def PunchProbe.verify (probe : PunchProbe) : Bool :=
  Ed25519.verify probe.origin (probeSigningBytes probe.nonce probe.origin) probe.signature

end

namespace PlainSignatures

/-- Keys that sign a message by repeating it after their identity, to run things with. -/
scoped instance plainSignatures : Ed25519 where
  Keypair := Pubkey
  pubkey keypair := keypair
  signMessage keypair message := pubkeyBytes keypair ++ message
  verify pubkey message signature := signature = pubkeyBytes pubkey ++ message
  verify_signMessage _ _ := decide_eq_true rfl

end PlainSignatures

end Lightbringer.Overlay
