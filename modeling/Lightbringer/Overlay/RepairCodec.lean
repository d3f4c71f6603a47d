import Lightbringer.Overlay.RepairStreams
import Lightbringer.Lib.Serde

/-!
# The codec of the repair sub-protocol

Requests and answers come back as they were sent, within the limits of the wire, and no bytes may follow them.
-/

namespace Lightbringer.Overlay
open Bincode

/-! ### Requests -/

theorem requestDecoder_read {variant : Nat} (small : variant < 2 ^ 32) (slot : UInt64) (shredIndex : UInt32)
    {request : RepairReq}
    (named : (variant = 0 ∧ request = .windowIndex slot shredIndex) ∨
      (variant = 1 ∧ request = .highestWindowIndex slot shredIndex)) (rest : List UInt8) :
    requestDecoder (varint variant ++ varint slot.toNat ++ varint shredIndex.toNat ++ rest) = some (request, rest) := by
  have index := Decoder.bounded_varint_read shredIndex.toNat_lt (Nat.lt_trans shredIndex.toNat_lt (by decide)) rest
  unfold requestDecoder
  rw [List.append_assoc, List.append_assoc]
  simp only [Decoder.bind_iff]
  refine ⟨variant, _, Decoder.bounded_varint_read small (Nat.lt_trans small (by decide)) _, slot.toNat, _,
    Decoder.varint_read slot.toNat_lt _, shredIndex.toNat, rest, index, ?_⟩
  rw [UInt64.ofNat_toNat, UInt32.ofNat_toNat]
  obtain ⟨rfl, rfl⟩ | ⟨rfl, rfl⟩ := named
  · rfl
  · rfl

theorem encodeRequest_read (request : RepairReq) (rest : List UInt8) :
    requestDecoder (encodeRequest request ++ rest) = some (request, rest) := by
  cases request with
  | windowIndex slot shredIndex => exact requestDecoder_read (by decide) slot shredIndex (.inl ⟨rfl, rfl⟩) rest
  | highestWindowIndex slot shredIndex => exact requestDecoder_read (by decide) slot shredIndex (.inr ⟨rfl, rfl⟩) rest

theorem length_encodeRequest_le (request : RepairReq) : (encodeRequest request).length ≤ maxRepairReqWire := by
  have bytes := Decoder.length_varint_le
  unfold maxRepairReqWire
  cases request with
  | windowIndex slot shredIndex =>
    have sizes := Nat.add_le_add (Nat.add_le_add (bytes 0) (bytes slot.toNat)) (bytes shredIndex.toNat)
    rw [encodeRequest, List.length_append, List.length_append]
    omega
  | highestWindowIndex slot shredIndex =>
    have sizes := Nat.add_le_add (Nat.add_le_add (bytes 1) (bytes slot.toNat)) (bytes shredIndex.toNat)
    rw [encodeRequest, List.length_append, List.length_append]
    omega

theorem decodeRequest_encodeRequest (request : RepairReq) : decodeRequest (encodeRequest request) = some request :=
  (Decoder.whole_of_read (length_encodeRequest_le request) (encodeRequest_read request)).1

/-! ### Answers -/

theorem within_limit_iff (bytes : List UInt8) {raw : List UInt8} {limit : Nat} :
    (if limit < bytes.length then none else some bytes) = some raw ↔ raw.length ≤ limit ∧ raw = bytes := by
  split
  next long => exact ⟨nofun, fun ⟨fits, same⟩ => (Nat.not_lt.mpr (same ▸ fits) long).elim⟩
  next fits =>
    rw [Option.some.injEq]
    constructor
    · rintro rfl
      exact ⟨Nat.le_of_not_lt fits, rfl⟩
    · exact fun ⟨_, same⟩ => same.symm

theorem encodeResponse_eq_some_iff {response : RepairResp} {raw : List UInt8} :
    encodeResponse response = some raw ↔ raw.length ≤ maxRepairRespWire ∧ raw = match response with
      | .shred bytes => varint 0 ++ varint bytes.length ++ bytes
      | .notFound => varint 1 := by
  cases response with
  | shred bytes => exact within_limit_iff (varint 0 ++ varint bytes.length ++ bytes)
  | notFound =>
    unfold encodeResponse
    dsimp only
    exact within_limit_iff (varint 1)

theorem encodeResponse_read {response : RepairResp} {raw : List UInt8} (encoded : encodeResponse response = some raw)
    (rest : List UInt8) : responseDecoder (raw ++ rest) = some (response, rest) := by
  obtain ⟨fits, same⟩ := encodeResponse_eq_some_iff.mp encoded
  unfold responseDecoder
  rw [Decoder.bind_iff]
  cases response with
  | shred bytes =>
    have short : bytes.length < 2 ^ 64 := by
      rw [same, List.length_append] at fits
      unfold maxRepairRespWire at fits
      omega
    rw [same, List.append_assoc, List.append_assoc]
    refine ⟨0, _, Decoder.bounded_varint_read (by decide) (by decide) _, ?_⟩
    simp only [Decoder.bind_iff]
    exact ⟨bytes.length, _, Decoder.varint_read short _, bytes, rest, Decoder.take_iff.mpr ⟨rfl, rfl⟩, rfl⟩
  | notFound =>
    rw [same]
    exact ⟨1, rest, Decoder.bounded_varint_read (by decide) (by decide) rest, rfl⟩

/-- A full shred leaves room for its framing. -/
theorem encodeResponse_shred {payload : List UInt8} (small : payload.length ≤ 1228) :
    ∃ raw, encodeResponse (.shred payload) = some raw := by
  refine ⟨_, encodeResponse_eq_some_iff.mpr ⟨?_, rfl⟩⟩
  have bytes := Decoder.length_varint_le
  have sizes := Nat.add_le_add (bytes 0) (bytes payload.length)
  unfold maxRepairRespWire
  rw [List.length_append, List.length_append]
  omega

theorem repair_codec :
    (∀ request, (encodeRequest request).length ≤ maxRepairReqWire ∧ decodeRequest (encodeRequest request) = some request ∧
      ∀ extra ≠ [], decodeRequest (encodeRequest request ++ extra) = none) ∧
    (∀ response raw, encodeResponse response = some raw → raw.length ≤ maxRepairRespWire ∧
      decodeResponse raw = some response ∧ ∀ extra ≠ [], decodeResponse (raw ++ extra) = none) ∧
    ∀ payload : List UInt8, payload.length ≤ 1228 → ∃ raw, encodeResponse (.shred payload) = some raw := by
  refine ⟨fun request => ?_, fun response raw encoded => ?_, fun payload small => encodeResponse_shred small⟩
  · have fits := length_encodeRequest_le request
    exact ⟨fits, Decoder.whole_of_read fits (encodeRequest_read request)⟩
  · have fits := (encodeResponse_eq_some_iff.mp encoded).1
    exact ⟨fits, Decoder.whole_of_read fits (encodeResponse_read encoded)⟩

/-- An empty shred, and a shred that is as long as they get. -/
theorem repair_codec_shreds :
    decodeResponse [0, 0] = some (.shred []) ∧ decodeResponse [0, 0, 7] = none ∧
      ∃ raw, encodeResponse (.shred (List.replicate 1228 7)) = some raw := by
  obtain ⟨_, answers, accepted⟩ := repair_codec
  obtain ⟨_, back, alone⟩ := answers (.shred []) [0, 0] rfl
  exact ⟨back, alone [7] (by decide), accepted _ (by rw [List.length_replicate])⟩

end Lightbringer.Overlay
