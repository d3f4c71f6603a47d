import Mathlib.Data.Set.Basic
import Lightbringer.Overlay.PunchMessages

/-!
# What a signature vouches for

The bytes that are signed do not say of which kind the message is. Within one kind they determine it, and a probe is
shorter than anything else; but a request and a response with the same content are the same bytes, and an advert may be
those of a request if the key repeats one word.
-/

namespace Lightbringer.Overlay
open Bincode

/-! ### The bytes determine the content -/

theorem delimited_u16 : Delimited (fun n : UInt16 => fixed 2 n.toNat) := by
  intro a b rest rest' same
  obtain ⟨numbers, rests⟩ := fixed_inj a.toNat_lt b.toNat_lt same
  exact ⟨UInt16.toNat_inj.mp numbers, rests⟩

theorem delimited_u32 : Delimited (fun n : UInt32 => fixed 4 n.toNat) := by
  intro a b rest rest' same
  obtain ⟨numbers, rests⟩ := fixed_inj a.toNat_lt b.toNat_lt same
  exact ⟨UInt32.toNat_inj.mp numbers, rests⟩

theorem delimited_u64 : Delimited (fun n : UInt64 => fixed 8 n.toNat) := by
  intro a b rest rest' same
  obtain ⟨numbers, rests⟩ := fixed_inj a.toNat_lt b.toNat_lt same
  exact ⟨UInt64.toNat_inj.mp numbers, rests⟩

theorem delimited_bool : Delimited (fun b : Bool => fixed 1 b.toNat) := by
  intro a b rest rest' same
  have small : ∀ b : Bool, b.toNat < 256 ^ 1 := by decide
  obtain ⟨numbers, rests⟩ := fixed_inj (small a) (small b) same
  refine ⟨?_, rests⟩
  revert numbers
  cases a <;> cases b <;> decide

theorem delimited_pubkey : Delimited pubkeyBytes := by
  intro a b rest rest' same
  obtain ⟨numbers, rests⟩ := ofNat_inj 32 a.isLt b.isLt same
  exact ⟨BitVec.eq_of_toNat_eq numbers, rests⟩

/-- Two tags of a choice. -/
theorem tag_inj {width n m : Nat} {rest rest' : List UInt8} (small : n < 256 ^ width) (small' : m < 256 ^ width)
    (apart : n ≠ m) : fixed width n ++ rest ≠ fixed width m ++ rest' := fun same => apart (fixed_inj small small' same).1

theorem delimited_ipAddr : Delimited ipAddrBytes := by
  intro a b rest rest' same
  cases a with
  | v4 octets =>
    cases b with
    | v4 octets' =>
      simp only [ipAddrBytes, List.append_assoc] at same
      obtain ⟨_, same⟩ := fixed_inj (by decide) (by decide) same
      obtain ⟨numbers, rests⟩ := ofNat_inj 4 octets.isLt octets'.isLt same
      exact ⟨congrArg IpAddr.v4 (BitVec.eq_of_toNat_eq numbers), rests⟩
    | v6 octets' =>
      simp only [ipAddrBytes, List.append_assoc] at same
      exact (tag_inj (by decide) (by decide) (by decide) same).elim
  | v6 octets =>
    cases b with
    | v4 octets' =>
      simp only [ipAddrBytes, List.append_assoc] at same
      exact (tag_inj (by decide) (by decide) (by decide) same).elim
    | v6 octets' =>
      simp only [ipAddrBytes, List.append_assoc] at same
      obtain ⟨_, same⟩ := fixed_inj (by decide) (by decide) same
      obtain ⟨numbers, rests⟩ := ofNat_inj 16 octets.isLt octets'.isLt same
      exact ⟨congrArg IpAddr.v6 (BitVec.eq_of_toNat_eq numbers), rests⟩

theorem delimited_socketAddr : Delimited socketAddrBytes := by
  intro a b rest rest' same
  obtain ⟨ip, port⟩ := a
  obtain ⟨ip', port'⟩ := b
  simp only [socketAddrBytes, List.append_assoc] at same
  obtain ⟨rfl, ports⟩ := delimited_ipAddr same
  obtain ⟨rfl, rests⟩ := delimited_u16 ports
  exact ⟨rfl, rests⟩

theorem delimited_option {α : Type} {bytes : α → List UInt8} (each : Delimited bytes) : Delimited (optionBytes bytes) := by
  intro a b rest rest' same
  cases a with
  | none =>
    cases b with
    | none => exact ⟨rfl, (fixed_inj (by decide) (by decide) same).2⟩
    | some value' =>
      simp only [optionBytes, List.append_assoc] at same
      exact (tag_inj (by decide) (by decide) (by decide) same).elim
  | some value =>
    cases b with
    | none =>
      simp only [optionBytes, List.append_assoc] at same
      exact (tag_inj (by decide) (by decide) (by decide) same).elim
    | some value' =>
      simp only [optionBytes, List.append_assoc] at same
      obtain ⟨_, same⟩ := fixed_inj (by decide) (by decide) same
      obtain ⟨rfl, rests⟩ := each same
      exact ⟨rfl, rests⟩

theorem delimited_list {α : Type} {bytes : α → List UInt8} (each : Delimited bytes) {xs ys : List α}
    {rest rest' : List UInt8} (short : xs.length ≤ 4) (short' : ys.length ≤ 4)
    (same : listBytes bytes xs ++ rest = listBytes bytes ys ++ rest') : xs = ys ∧ rest = rest' := by
  simp only [listBytes, List.append_assoc] at same
  have small : ∀ n ≤ 4, n < 256 ^ 8 := fun n le => Nat.lt_of_le_of_lt le (by decide)
  obtain ⟨lengths, same⟩ := fixed_inj (small _ short) (small _ short') same
  exact delimited_flatMap each lengths same

theorem delimited_natClass : Delimited natClassBytes := by
  intro a b rest rest' same
  have lengths : ∀ natClass, (natClassBytes natClass).length = 4 := by
    intro natClass
    cases natClass <;> rfl
  obtain ⟨bytes, rests⟩ := List.append_inj same (by rw [lengths, lengths])
  refine ⟨?_, rests⟩
  revert bytes
  cases a <;> cases b <;> decide

theorem delimited_allocator : Delimited allocatorBytes := by
  intro a b rest rest' same
  cases a <;> cases b <;> simp only [allocatorBytes, List.append_assoc] at same
  case sequential.sequential stride stride' =>
    obtain ⟨_, strides⟩ := fixed_inj (by decide) (by decide) same
    obtain ⟨rfl, rests⟩ := delimited_u16 strides
    exact ⟨rfl, rests⟩
  case preserving.preserving => exact ⟨rfl, (fixed_inj (by decide) (by decide) same).2⟩
  case random.random => exact ⟨rfl, (fixed_inj (by decide) (by decide) same).2⟩
  all_goals exact (tag_inj (by decide) (by decide) (by decide) same).elim

theorem delimited_natProfile : Delimited natProfileBytes := by
  intro a b rest rest' same
  obtain ⟨natClass, allocator, birthdayPunch, generation⟩ := a
  obtain ⟨natClass', allocator', birthdayPunch', generation'⟩ := b
  simp only [natProfileBytes, List.append_assoc] at same
  obtain ⟨rfl, allocators⟩ := delimited_option delimited_natClass same
  obtain ⟨rfl, birthdays⟩ := delimited_option delimited_allocator allocators
  obtain ⟨rfl, generations⟩ := delimited_bool birthdays
  obtain ⟨rfl, rests⟩ := delimited_option delimited_ipAddr generations
  exact ⟨rfl, rests⟩

theorem signalingBytes_inj {a b : Signaling} (same : signalingBytes a = signalingBytes b) : a = b := by
  obtain ⟨nonce, origin, target, ⟨candidates, fits⟩, natProfile⟩ := a
  obtain ⟨nonce', origin', target', ⟨candidates', fits'⟩, natProfile'⟩ := b
  simp only [signalingBytes, List.append_assoc] at same
  obtain ⟨rfl, origins⟩ := delimited_u64 same
  obtain ⟨rfl, targets⟩ := delimited_pubkey origins
  obtain ⟨rfl, lists⟩ := delimited_pubkey targets
  obtain ⟨rfl, profiles⟩ := delimited_list delimited_socketAddr fits fits' lists
  rw [← List.append_nil (natProfileBytes natProfile), ← List.append_nil (natProfileBytes natProfile')] at profiles
  obtain ⟨rfl, _⟩ := delimited_natProfile profiles
  rfl

theorem delimited_taggedAddr : Delimited taggedAddrBytes := by
  intro a b rest rest' same
  obtain ⟨port, addr⟩ := a
  obtain ⟨port', addr'⟩ := b
  simp only [taggedAddrBytes, List.append_assoc] at same
  obtain ⟨rfl, addrs⟩ := delimited_u16 same
  obtain ⟨rfl, rests⟩ := delimited_socketAddr addrs
  exact ⟨rfl, rests⟩

theorem delimited_repairEndpoint : Delimited repairEndpointBytes := by
  intro a b rest rest' same
  cases a <;> cases b <;> simp only [repairEndpointBytes, List.append_assoc] at same
  case udp.udp addr addr' =>
    obtain ⟨_, addrs⟩ := fixed_inj (by decide) (by decide) same
    obtain ⟨rfl, rests⟩ := delimited_socketAddr addrs
    exact ⟨rfl, rests⟩
  case inConnection.inConnection => exact ⟨rfl, (fixed_inj (by decide) (by decide) same).2⟩
  all_goals exact (tag_inj (by decide) (by decide) (by decide) same).elim

/-- The bounds of the `ArrayVec`s in an advert. -/
def Reachability.Fits : Reachability → Prop
  | .direct addrs => addrs.length ≤ maxAdvertAddrs
  | .coordinated observed via => observed.length ≤ maxAdvertAddrs ∧ via.length ≤ maxAdvertVia

theorem delimited_reachability {a b : Reachability} {rest rest' : List UInt8} (fits : a.Fits) (fits' : b.Fits)
    (same : reachabilityBytes a ++ rest = reachabilityBytes b ++ rest') : a = b ∧ rest = rest' := by
  cases a <;> cases b <;> simp only [reachabilityBytes, List.append_assoc] at same
  case direct.direct addrs addrs' =>
    obtain ⟨_, lists⟩ := fixed_inj (by decide) (by decide) same
    obtain ⟨rfl, rests⟩ := delimited_list delimited_socketAddr fits fits' lists
    exact ⟨rfl, rests⟩
  case coordinated.coordinated observed via observed' via' =>
    obtain ⟨_, lists⟩ := fixed_inj (by decide) (by decide) same
    obtain ⟨rfl, vias⟩ := delimited_list delimited_taggedAddr fits.1 fits'.1 lists
    obtain ⟨rfl, rests⟩ := delimited_list delimited_pubkey fits.2 fits'.2 vias
    exact ⟨rfl, rests⟩
  all_goals exact (tag_inj (by decide) (by decide) (by decide) same).elim

theorem advertBytes_inj {a b : PeerAdvert} (fits : a.reachability.Fits) (fits' : b.reachability.Fits)
    (same : advertBytes a = advertBytes b) : a = b := by
  obtain ⟨pubkey, advertSeq, ttlMs, reachability, repair⟩ := a
  obtain ⟨pubkey', advertSeq', ttlMs', reachability', repair'⟩ := b
  simp only [advertBytes, List.append_assoc] at same
  obtain ⟨rfl, seqs⟩ := delimited_pubkey same
  obtain ⟨rfl, ttls⟩ := delimited_u64 seqs
  obtain ⟨rfl, reach⟩ := delimited_u32 ttls
  obtain ⟨rfl, repairs⟩ := delimited_reachability fits fits' reach
  rw [← List.append_nil (repairEndpointBytes repair), ← List.append_nil (repairEndpointBytes repair')] at repairs
  obtain ⟨rfl, _⟩ := delimited_repairEndpoint repairs
  rfl

theorem probeSigningBytes_inj {nonce nonce' : UInt64} {origin origin' : Pubkey}
    (same : probeSigningBytes nonce origin = probeSigningBytes nonce' origin') : nonce = nonce' ∧ origin = origin' := by
  obtain ⟨nonces, origins⟩ := delimited_u64 same
  rw [← List.append_nil (pubkeyBytes origin), ← List.append_nil (pubkeyBytes origin')] at origins
  exact ⟨nonces, (delimited_pubkey origins).1⟩

/-! ### The kinds -/

theorem length_pubkeyBytes (pubkey : Pubkey) : (pubkeyBytes pubkey).length = 32 := Bytes.length_ofNat ..

theorem length_probeSigningBytes (nonce : UInt64) (origin : Pubkey) : (probeSigningBytes nonce origin).length = 40 := by
  rw [probeSigningBytes, List.length_append, length_fixed, length_pubkeyBytes]

theorem length_signalingBytes (content : Signaling) : 40 < (signalingBytes content).length := by
  simp only [signalingBytes, List.length_append, length_fixed, length_pubkeyBytes]
  omega

theorem length_advertBytes (advert : PeerAdvert) : 40 < (advertBytes advert).length := by
  simp only [advertBytes, List.length_append, length_fixed, length_pubkeyBytes]
  omega

/-- The key is four times the same word. -/
def Repeats (pubkey : Pubkey) : Prop :=
  ∃ word : List UInt8, word.length = 8 ∧ pubkeyBytes pubkey = word ++ (word ++ (word ++ word))

/-- A word that can be moved from one end to the other starts the list. -/
theorem shift_word {xs word last : List UInt8} (short : word.length ≤ xs.length) (same : xs ++ last = word ++ xs) :
    ∃ ys, xs = word ++ ys ∧ ys ++ last = word ++ ys := by
  have starts : xs = word ++ xs.drop word.length := by
    have front := congrArg (List.take word.length) same
    rw [List.take_append_of_le_length short, List.take_left] at front
    conv_lhs => rw [← List.take_append_drop word.length xs, front]
  refine ⟨xs.drop word.length, starts, ?_⟩
  rw [← starts]
  have back := congrArg (List.drop word.length) same
  rwa [List.drop_append_of_le_length short, List.drop_left] at back

/-- An advert and a request of one key have the same bytes only if the key repeats a word. -/
theorem repeats_of_advertBytes {advert : PeerAdvert} {content : Signaling} (same : advertBytes advert = signalingBytes content)
    (origin : advert.pubkey = content.origin) : Repeats content.origin := by
  simp only [advertBytes, signalingBytes, List.append_assoc, origin] at same
  rw [← List.append_assoc, ← List.append_assoc (fixed 8 content.nonce.toNat)] at same
  obtain ⟨fronts, _⟩ := List.append_inj same
    (by rw [List.length_append, List.length_append, length_fixed, length_fixed, length_pubkeyBytes])
  have size := length_fixed 8 content.nonce.toNat
  have key := length_pubkeyBytes content.origin
  generalize fixed 8 content.nonce.toNat = word at fronts size
  obtain ⟨ys, first, fronts⟩ := shift_word (by rw [size, key]; decide) fronts
  rw [first, List.length_append, size] at key
  obtain ⟨zs, second, fronts⟩ := shift_word (by rw [size]; omega) fronts
  rw [second, List.length_append, size] at key
  obtain ⟨us, third, fronts⟩ := shift_word (by rw [size]; omega) fronts
  rw [third, List.length_append, size] at key
  have last : us = word := (List.append_inj fronts (by rw [size]; omega)).1
  exact ⟨word, size, by rw [first, second, third, last]⟩

/-! ### Signed as another kind -/

/-- What a key may sign, by kind. -/
inductive Signable where
  | advert (advert : PeerAdvert)
  | request (content : Signaling)
  | response (content : Signaling)
  | probe (nonce : UInt64) (origin : Pubkey)

namespace Signable

def origin : Signable → Pubkey
  | .advert content => content.pubkey
  | .request content | .response content => content.origin
  | .probe _ origin => origin

def bytes : Signable → List UInt8
  | .advert content => advertBytes content
  | .request content => requestSigningBytes content
  | .response content => responseSigningBytes content
  | .probe nonce origin => probeSigningBytes nonce origin

def Fits : Signable → Prop
  | .advert content => content.reachability.Fits
  | _ => True

variable [Ed25519]

/-- The signature that the `sign` of its kind makes. -/
def sign (keypair : Ed25519.Keypair) : Signable → Signature
  | .advert content => (SignedPeerAdvert.sign content keypair).signature
  | .request content =>
    (ConnectRequest.sign content.nonce content.target content.candidates content.natProfile keypair).signature
  | .response content =>
    (ConnectResponse.sign content.nonce content.target content.candidates content.natProfile keypair).signature
  | .probe nonce _ => (PunchProbe.sign nonce keypair).signature

/-- The `verify` of its kind. -/
def verify (signature : Signature) : Signable → Bool
  | .advert content => SignedPeerAdvert.verify ⟨content, signature⟩
  | .request content => ConnectRequest.verify ⟨content, signature⟩
  | .response content => ConnectResponse.verify ⟨content, signature⟩
  | .probe nonce origin => PunchProbe.verify ⟨nonce, origin, signature⟩

/-- A message in the name of the key. -/
structure Own (keypair : Ed25519.Keypair) (message : Signable) : Prop where
  origin : message.origin = Ed25519.pubkey keypair
  fits : message.Fits

/-- The key signed these, and of the signatures in circulation none verifies for bytes that it did not sign. -/
structure Unforgeable (keypair : Ed25519.Keypair) (signed : Set Signable) (circulating : Set Signature) : Prop where
  own : ∀ message ∈ signed, message.Own keypair
  made : ∀ message ∈ signed, message.sign keypair ∈ circulating
  genuine : ∀ bytes, ∀ signature ∈ circulating, Ed25519.verify (Ed25519.pubkey keypair) bytes signature = true →
    ∃ message ∈ signed, message.bytes = bytes

/-- Whatever verifies in the name of the key was signed by it, as that kind. -/
def Separated (keypair : Ed25519.Keypair) (signed : Set Signable) (circulating : Set Signature) : Prop :=
  ∀ message, message.Own keypair → ∀ signature ∈ circulating, message.verify signature = true → message ∈ signed

/-- What is signed as one kind is signed as every kind with these bytes. -/
structure Paired (keypair : Ed25519.Keypair) (signed : Set Signable) : Prop where
  kinds : ∀ content, content.origin = Ed25519.pubkey keypair → (.request content ∈ signed ↔ .response content ∈ signed)
  adverts : Repeats (Ed25519.pubkey keypair) → ∀ advert content, (Signable.advert advert).Own keypair →
    content.origin = Ed25519.pubkey keypair → advertBytes advert = signalingBytes content →
      (.advert advert ∈ signed ↔ .request content ∈ signed)

variable {keypair : Ed25519.Keypair} {signed : Set Signable} {circulating : Set Signature}

theorem verify_eq (message : Signable) (signature : Signature) :
    message.verify signature = Ed25519.verify message.origin message.bytes signature := by
  cases message <;> rfl

theorem sign_eq {message : Signable} (own : message.origin = Ed25519.pubkey keypair) :
    message.sign keypair = Ed25519.signMessage keypair message.bytes := by
  cases message with
  | advert advert => rfl
  | request content =>
    obtain ⟨nonce, origin, target, candidates, natProfile⟩ := content
    cases own
    rfl
  | response content =>
    obtain ⟨nonce, origin, target, candidates, natProfile⟩ := content
    cases own
    rfl
  | probe nonce origin =>
    cases own
    rfl

/-- A signature verifies for every message with the bytes it was made for. -/
theorem verify_sign_of_bytes {message other : Signable} (own : message.Own keypair) (theirs : other.Own keypair)
    (same : other.bytes = message.bytes) : other.verify (message.sign keypair) = true := by
  rw [verify_eq, sign_eq own.origin, theirs.origin, same]
  exact Ed25519.verify_signMessage keypair _

theorem Separated.mem_of_bytes (separated : Separated keypair signed circulating)
    (unforgeable : Unforgeable keypair signed circulating) {message other : Signable} (member : message ∈ signed)
    (theirs : other.Own keypair) (same : other.bytes = message.bytes) : other ∈ signed :=
  separated other theirs _ (unforgeable.made message member)
    (verify_sign_of_bytes (unforgeable.own message member) theirs same)

theorem paired_of_separated (unforgeable : Unforgeable keypair signed circulating)
    (separated : Separated keypair signed circulating) : Paired keypair signed := by
  refine ⟨fun content origin => ⟨fun member => ?_, fun member => ?_⟩,
    fun _ advert content own origin same => ⟨fun member => ?_, fun member => ?_⟩⟩
  · exact separated.mem_of_bytes unforgeable member ⟨origin, trivial⟩ rfl
  · exact separated.mem_of_bytes unforgeable member ⟨origin, trivial⟩ rfl
  · exact separated.mem_of_bytes unforgeable member ⟨origin, trivial⟩ same.symm
  · exact separated.mem_of_bytes unforgeable member own same

/-- A content of the other two kinds goes with an advert that has its bytes. -/
theorem Paired.advert_iff (paired : Paired keypair signed) {advert : PeerAdvert} {content : Signaling}
    (own : (Signable.advert advert).Own keypair) (origin : content.origin = Ed25519.pubkey keypair)
    (same : advertBytes advert = signalingBytes content) : .advert advert ∈ signed ↔ .request content ∈ signed := by
  refine paired.adverts ?_ advert content own origin same
  rw [← origin]
  exact repeats_of_advertBytes same (own.origin.trans origin.symm)

omit [Ed25519] in
/-- The bytes of the other kinds are longer than those of a probe. -/
theorem ne_probeSigningBytes {bytes : List UInt8} (long : 40 < bytes.length) (nonce : UInt64) (origin : Pubkey) :
    bytes ≠ probeSigningBytes nonce origin := by
  rintro rfl
  exact Nat.lt_irrefl _ (length_probeSigningBytes nonce origin ▸ long)

theorem request_of_bytes (paired : Paired keypair signed) {content : Signaling} {other : Signable}
    (mine : content.origin = Ed25519.pubkey keypair) (theirs : other.Own keypair) (member : other ∈ signed)
    (same : other.bytes = signalingBytes content) : .request content ∈ signed := by
  cases other with
  | advert advert => exact (paired.advert_iff theirs mine same).mp member
  | request other => rwa [← signalingBytes_inj same]
  | response other =>
    rw [← signalingBytes_inj same]
    exact (paired.kinds other theirs.origin).mpr member
  | probe nonce origin => exact (ne_probeSigningBytes (length_signalingBytes content) nonce origin same.symm).elim

theorem mem_of_bytes (paired : Paired keypair signed) {message other : Signable} (mine : message.Own keypair)
    (theirs : other.Own keypair) (member : other ∈ signed) (same : other.bytes = message.bytes) : message ∈ signed := by
  cases message with
  | advert advert =>
    cases other with
    | advert other => rwa [← advertBytes_inj theirs.fits mine.fits same]
    | request content => exact (paired.advert_iff mine theirs.origin same.symm).mpr member
    | response content =>
      exact (paired.advert_iff mine theirs.origin same.symm).mpr ((paired.kinds content theirs.origin).mpr member)
    | probe nonce origin => exact (ne_probeSigningBytes (length_advertBytes advert) nonce origin same.symm).elim
  | request content => exact request_of_bytes paired mine.origin theirs member same
  | response content =>
    exact (paired.kinds content mine.origin).mp (request_of_bytes paired mine.origin theirs member same)
  | probe nonce origin =>
    cases other with
    | advert advert => exact (ne_probeSigningBytes (length_advertBytes advert) nonce origin same).elim
    | request content => exact (ne_probeSigningBytes (length_signalingBytes content) nonce origin same).elim
    | response content => exact (ne_probeSigningBytes (length_signalingBytes content) nonce origin same).elim
    | probe nonce' origin' =>
      obtain ⟨rfl, rfl⟩ := probeSigningBytes_inj same
      exact member

/-- The kinds are kept apart only for a key that signs all of them or none. -/
theorem kinds_separated_iff (unforgeable : Unforgeable keypair signed circulating) :
    Separated keypair signed circulating ↔ Paired keypair signed := by
  refine ⟨paired_of_separated unforgeable, fun paired message own signature circulates verified => ?_⟩
  rw [verify_eq, own.origin] at verified
  obtain ⟨other, member, same⟩ := unforgeable.genuine message.bytes signature circulates verified
  exact mem_of_bytes paired own (unforgeable.own other member) member same

end Signable

/-! ### A request read as a response -/

namespace Signable
open PlainSignatures

theorem plain_unforgeable {keypair : Pubkey} {signed : Set Signable} (own : ∀ message ∈ signed, message.Own keypair) :
    Unforgeable keypair signed (Set.image (sign keypair) signed) := by
  refine ⟨own, fun message member => ⟨message, member, rfl⟩, fun bytes signature circulates verified => ?_⟩
  obtain ⟨message, member, rfl⟩ := circulates
  refine ⟨message, member, ?_⟩
  rw [sign_eq (own message member).origin] at verified
  exact List.append_cancel_left (of_decide_eq_true verified)

def askedContent : Signaling := ⟨3, 1, 5, .empty, .unknown⟩

/-- Key 1 signs one request, and it passes for the response of key 1 to peer 5. -/
theorem request_passes_as_response :
    Unforgeable (1 : Pubkey) {.request askedContent} (Set.image (sign (1 : Pubkey)) {.request askedContent}) ∧
      ConnectResponse.verify ⟨askedContent, (ConnectRequest.sign 3 5 .empty .unknown (1 : Pubkey)).signature⟩ = true ∧
      ¬ Separated (1 : Pubkey) {.request askedContent} (Set.image (sign (1 : Pubkey)) {.request askedContent}) := by
  have own : ∀ message ∈ ({.request askedContent} : Set Signable), message.Own (1 : Pubkey) := by
    rintro message rfl
    exact ⟨rfl, trivial⟩
  refine ⟨plain_unforgeable own, by decide +kernel, fun separated => ?_⟩
  have member : .response askedContent ∈ ({.request askedContent} : Set Signable) :=
    separated.mem_of_bytes (plain_unforgeable own) rfl ⟨rfl, trivial⟩ rfl
  cases member

/-- A probe, and a content both as a request and as a response. -/
def inPairs : Set Signable := {.request askedContent, .response askedContent, .probe 3 1}

/-- A key that signs in pairs is not mistaken: its bytes do not repeat those of an advert. -/
theorem pairs_separated : Separated (1 : Pubkey) inPairs (Set.image (sign (1 : Pubkey)) inPairs) := by
  have own : ∀ message ∈ inPairs, message.Own (1 : Pubkey) := by
    rintro message (rfl | rfl | rfl)
    · exact ⟨rfl, trivial⟩
    · exact ⟨rfl, trivial⟩
    · exact ⟨rfl, trivial⟩
  have lone : ¬ Repeats (Ed25519.pubkey (1 : Pubkey)) := by
    rintro ⟨word, size, same⟩
    have first : (pubkeyBytes (1 : Pubkey)).take 8 = word := by
      rw [show pubkeyBytes (1 : Pubkey) = _ from same, List.take_left' size]
    have last : (((pubkeyBytes (1 : Pubkey)).drop 8).drop 8).drop 8 = word := by
      rw [show pubkeyBytes (1 : Pubkey) = _ from same, List.drop_left' size, List.drop_left' size, List.drop_left' size]
    exact absurd (first.trans last.symm) (by decide +kernel)
  refine (kinds_separated_iff (plain_unforgeable own)).mpr ⟨fun content _ => ?_, fun repeats => absurd repeats lone⟩
  simp [inPairs]

end Signable

end Lightbringer.Overlay
