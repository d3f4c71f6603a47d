import Lightbringer.Overlay.RepairCodec
import Lightbringer.Repair.Tasks
import Lightbringer.RepairDelivery.Serve

/-!
# What is remembered of a request and what its bytes ask for

`map_shred` of `repair/peer_manager.rs`, which writes the bytes of a request, and the records that the places which call
it make for the outstanding loop.
-/

namespace Lightbringer.Repair
open Std Machine Bincode

/-! ### The bytes of a request -/

abbrev Protocol := RepairDelivery.RepairProtocol

/-- The signature of a request takes its place in the header. -/
def Protocol.signed (request : Protocol) (signature : Overlay.SignatureArray) : Protocol :=
  match request with
  | .windowIndex header slot shredIndex => .windowIndex { header with signature } slot shredIndex
  | .highestWindowIndex header slot shredIndex => .highestWindowIndex { header with signature } slot shredIndex
  | .orphan header slot => .orphan { header with signature } slot
  | .ancestorHashes header slot => .ancestorHashes { header with signature } slot
  | _ => request

/-- The requests with a header, which has room for a signature. -/
def Protocol.hasHeader : Protocol → Bool
  | .windowIndex .. | .highestWindowIndex .. | .orphan .. | .ancestorHashes .. => true
  | _ => false

/-- `ServeRepair` of `solana_core`. -/
class RepairSigner where
  repairProtoToBytes : Protocol → List UInt8

/-- What is sent of a request with a header is the request with a signature filled in. -/
def RepairSigner.FillsIn [RepairSigner] : Prop :=
  ∀ request, Protocol.hasHeader request = true →
    ∃ signature, repairProtoToBytes request = serialize (Protocol.signed request signature)

/-- The mapper, of which only the identity it signs with is ever read. -/
structure RepairRequestMapper where
  pubkey : Pubkey

def noSignature : Overlay.SignatureArray := ⟨List.replicate 64 0, rfl⟩

def RepairRequestMapper.createHeader (mapper : RepairRequestMapper) (timestamp : UInt64) (nonce : Nonce) (reqPk : Pubkey) :
    RepairDelivery.RepairRequestHeader := ⟨noSignature, mapper.pubkey, reqPk, timestamp, nonce⟩

def protocolOf (kind : OutstandingRequestKind) (header : RepairDelivery.RepairRequestHeader) (slot : UInt64)
    (shredIndex : UInt32) : Protocol :=
  match kind with
  | .highestWindowIndex => .highestWindowIndex header slot shredIndex.toUInt64
  | .windowIndex => .windowIndex header slot shredIndex.toUInt64

theorem hasHeader_protocolOf (kind : OutstandingRequestKind) (header : RepairDelivery.RepairRequestHeader) (slot : UInt64)
    (shredIndex : UInt32) : Protocol.hasHeader (protocolOf kind header slot shredIndex) = true := by
  cases kind <;> rfl

def overlayOf (kind : OutstandingRequestKind) (slot : UInt64) (shredIndex : UInt32) : Overlay.RepairReq :=
  match kind with
  | .highestWindowIndex => .highestWindowIndex slot shredIndex
  | .windowIndex => .windowIndex slot shredIndex

/-- An entry of a `RepairSocketRequestBatch`. -/
abbrev Wire := RepairTarget × Nonce × List UInt8

/-- `map_shred` of the source, with the time it stamps. -/
def RepairRequestMapper.mapShred [RepairSigner] (mapper : RepairRequestMapper) (timestamp : UInt64) (draw : Draw)
    (slot : UInt64) (shredIndex : UInt32) (kind : OutstandingRequestKind) : Option Wire :=
  match draw with
  | none => none
  | some (target, nonce) =>
    let raw := match target with
      | .udp _ reqPk =>
        RepairSigner.repairProtoToBytes (protocolOf kind (mapper.createHeader timestamp nonce reqPk) slot shredIndex)
      | .overlay _ => Overlay.encodeRequest (overlayOf kind slot shredIndex)
    some (target, nonce, raw)

/-- The bytes of a request that was drawn. -/
def SocketRequest.wire [RepairSigner] (mapper : RepairRequestMapper) (timestamp : UInt64) (request : SocketRequest) : Wire :=
  (request.target, request.nonce,
    match request.target with
    | .udp _ reqPk =>
      RepairSigner.repairProtoToBytes
        (protocolOf request.kind (mapper.createHeader timestamp request.nonce reqPk) request.slot request.shredIndex)
    | .overlay _ => Overlay.encodeRequest (overlayOf request.kind request.slot request.shredIndex))

theorem mapShred_wire [RepairSigner] (mapper : RepairRequestMapper) (timestamp : UInt64) (draw : Draw) (slot : UInt64)
    (shredIndex : UInt32) (kind : OutstandingRequestKind) :
    mapper.mapShred timestamp draw slot shredIndex kind =
      (mapShred draw slot shredIndex kind).map (SocketRequest.wire mapper timestamp) := by
  cases draw with
  | none => rfl
  | some drawn => rfl

/-- The bytes, read as the one who is asked reads them, ask that peer for what is recorded. -/
def Encodes (mapper : RepairRequestMapper) (record : OutstandingRequest) (wire : Wire) : Prop :=
  wire.1 = record.target ∧ wire.2.1 = record.nonce ∧
    match record.target with
    | .udp _ reqPk => ∃ header, deserialize wire.2.2 = some (protocolOf record.kind header record.slot record.shred) ∧
        header.sender = mapper.pubkey ∧ header.recipient = reqPk ∧ header.nonce = record.nonce
    | .overlay _ => Overlay.decodeRequest wire.2.2 = some (overlayOf record.kind record.slot record.shred)

/-- What has to be remembered of a request. -/
def SocketRequest.record (request : SocketRequest) : OutstandingRequest :=
  ⟨request.kind, request.nonce, request.slot, request.shredIndex, request.target⟩

/-! ### Round trips -/

theorem deserialize_serialize {α : Type} [Serde α] (a : α) : deserialize (serialize a) = some a :=
  deserialize_iff.mpr ⟨[], (List.append_nil _).symm⟩

theorem protocolOf_inj {kind kind' : OutstandingRequestKind} {header header' : RepairDelivery.RepairRequestHeader}
    {slot slot' : UInt64} {shred shred' : UInt32}
    (same : protocolOf kind header slot shred = protocolOf kind' header' slot' shred') :
    kind = kind' ∧ slot = slot' ∧ shred = shred' := by
  have widened : shred.toUInt64 = shred'.toUInt64 → shred = shred' := by
    intro wide
    have value := congrArg UInt64.toNat wide
    rw [UInt32.toNat_toUInt64, UInt32.toNat_toUInt64] at value
    exact UInt32.toNat_inj.mp value
  cases kind <;> cases kind' <;> simp only [protocolOf, RepairDelivery.RepairProtocol.windowIndex.injEq,
    RepairDelivery.RepairProtocol.highestWindowIndex.injEq, reduceCtorEq] at same
  · exact ⟨rfl, same.2.1, widened same.2.2⟩
  · exact ⟨rfl, same.2.1, widened same.2.2⟩

theorem overlayOf_inj {kind kind' : OutstandingRequestKind} {slot slot' : UInt64} {shred shred' : UInt32}
    (same : overlayOf kind slot shred = overlayOf kind' slot' shred') : kind = kind' ∧ slot = slot' ∧ shred = shred' := by
  cases kind <;> cases kind' <;> simp only [overlayOf, Overlay.RepairReq.windowIndex.injEq,
    Overlay.RepairReq.highestWindowIndex.injEq, reduceCtorEq] at same
  · exact ⟨rfl, same⟩
  · exact ⟨rfl, same⟩

theorem signed_protocolOf (kind : OutstandingRequestKind) (header : RepairDelivery.RepairRequestHeader) (slot : UInt64)
    (shred : UInt32) (signature : Overlay.SignatureArray) :
    Protocol.signed (protocolOf kind header slot shred) signature =
      protocolOf kind { header with signature } slot shred := by
  cases kind <;> rfl

/-- The bytes encode what is recorded iff the record is the one of the request. -/
theorem encodes_iff [RepairSigner] (fills : RepairSigner.FillsIn) (mapper : RepairRequestMapper) (timestamp : UInt64)
    (record : OutstandingRequest) (request : SocketRequest) :
    Encodes mapper record (request.wire mapper timestamp) ↔ record = request.record := by
  obtain ⟨kind, nonce, slot, shred, target⟩ := record
  obtain ⟨target', nonce', kind', slot', shred'⟩ := request
  simp only [Encodes, SocketRequest.wire, SocketRequest.record, OutstandingRequest.mk.injEq]
  constructor
  · rintro ⟨rfl, rfl, asked⟩
    cases target' with
    | udp socket reqPk =>
      obtain ⟨header, read, -⟩ := asked
      obtain ⟨signature, bytes⟩ := fills _
        (hasHeader_protocolOf kind' (mapper.createHeader timestamp nonce' reqPk) slot' shred')
      dsimp only at read
      rw [bytes, deserialize_serialize, signed_protocolOf] at read
      obtain ⟨kinds, slots, shreds⟩ := protocolOf_inj (Option.some.inj read)
      exact ⟨kinds.symm, rfl, slots.symm, shreds.symm, rfl⟩
    | overlay peer =>
      dsimp only at asked
      rw [Overlay.decodeRequest_encodeRequest] at asked
      obtain ⟨kinds, slots, shreds⟩ := overlayOf_inj (Option.some.inj asked)
      exact ⟨kinds.symm, rfl, slots.symm, shreds.symm, rfl⟩
  · rintro ⟨rfl, rfl, rfl, rfl, rfl⟩
    refine ⟨rfl, rfl, ?_⟩
    cases target with
    | udp socket reqPk =>
      obtain ⟨signature, bytes⟩ := fills _
        (hasHeader_protocolOf kind (mapper.createHeader timestamp nonce reqPk) slot shred)
      refine ⟨{ mapper.createHeader timestamp nonce reqPk with signature }, ?_, rfl, rfl, rfl⟩
      dsimp only
      rw [bytes, deserialize_serialize, signed_protocolOf]
    | overlay peer => exact Overlay.decodeRequest_encodeRequest _

/-! ### What a turn hands to the socket -/

theorem announcedIn_append (messages more : List OutstandingRequestMsg) :
    Tasks.announcedIn (messages ++ more) = Tasks.announcedIn messages ++ Tasks.announcedIn more := List.filterMap_append

theorem announcedIn_announceAll (batch : List SocketRequest) :
    Tasks.announcedIn (announceAll batch) = batch.map SocketRequest.record := by
  unfold Tasks.announcedIn announceAll
  rw [List.filterMap_map, ← List.filterMap_eq_map]
  rfl

/-- The request processor records what it sends. -/
theorem announcedIn_socketReqs {manager : RepairManager} {draws : Nat → Draw} {request : RepairReq}
    {announced : List OutstandingRequestMsg} {batch : List SocketRequest}
    (served : manager.socketReqs draws request = some (announced, batch)) :
    Tasks.announcedIn announced = batch.map SocketRequest.record := by
  cases request with
  | missingBoundedShreds slot shreds =>
    dsimp only [RepairManager.socketReqs] at served
    split at served
    · cases served
    split at served
    · cases served
    · cases served
      exact announcedIn_announceAll _
  | missingUnboundedShreds slot shreds maxInclusiveShred =>
    dsimp only [RepairManager.socketReqs] at served
    split at served
    · cases served
    split at served
    · cases served
    next last mapped =>
      cases served
      rw [announcedIn_append, announcedIn_announceAll, List.map_append]
      obtain ⟨drawn, -, rfl⟩ := Option.map_eq_some_iff.mp mapped
      rfl
  | cancelRepair slot => cases served

variable [ShredLayout]

/-- After an answer to an unbounded request the records are those of what is sent, unless the highest shred is asked for
again: that request is remembered one index too low. -/
theorem announcedIn_followUps {draws : Nat → Draw} {packet : PacketInfo} {reqShredIndex : UInt32}
    {announced : List OutstandingRequestMsg} {batch : List SocketRequest}
    (followed : handleUnboundedPacketResponse draws packet reqShredIndex = some (announced, batch)) :
    Tasks.announcedIn announced = batch.map SocketRequest.record ↔
      ¬ ((ShredLayout.getFlags packet).any (fun flags => !flags.lastShredInSlot) = true ∧ (draws 0).isSome = true) := by
  unfold handleUnboundedPacketResponse at followed
  split at followed
  next flags shredIndex shredSlot flagsRead _ _ =>
    cases followed
    rw [flagsRead, announcedIn_append, announcedIn_announceAll, List.map_append, List.append_cancel_left_eq]
    cases last : flags.lastShredInSlot with
    | true => simp [last, Tasks.announcedIn]
    | false =>
      cases drawn : draws 0 with
      | none => simp [mapShred, Tasks.announcedIn]
      | some peer =>
        have other : shredIndex ≠ shredIndex + 1 := by
          intro same
          have value := congrArg UInt32.toNat same
          have bound := shredIndex.toNat_lt
          rw [UInt32.toNat_add, UInt32.toNat_one] at value
          omega
        simp [mapShred, last, Tasks.announcedIn, SocketRequest.announce, SocketRequest.record, other]
  · cases followed

namespace Tasks

def createdIn (out : List TaskEvent) : List OutstandingRequest :=
  out.filterMap (fun event => match event with | .created request => some request | _ => none)

omit [ShredLayout] in
theorem createdIn_map (requests : List OutstandingRequest) : createdIn (requests.map .created) = requests := by
  rw [createdIn, List.filterMap_map]
  exact List.filterMap_some

/-- The records a turn makes, and the batch it is about to hand over with them. -/
def handsOver (t : Tasks) (input : Input) : List OutstandingRequest × List SocketRequest :=
  match input with
  | .process draws =>
    match t.processor, (t.process draws).1.processor with
    | none, some sending => (createdIn (t.process draws).2, sending.batch)
    | _, _ => ([], [])
  | .outstanding draw =>
    match t.retry, (t.outstanding draw).1.retry with
    | none, some sending => ([sending.next], sending.batch)
    | _, _ => ([], [])
  | .receive draws =>
    match t.answer, (t.receive draws).1.answer with
    | none, some sending => (createdIn (t.receive draws).2, sending.batch)
    | _, _ => ([], [])
  | _ => ([], [])

/-- The next answer to be received is matched to an unbounded request, is a data shred but not the last of its slot,
and a peer is found to ask for a higher one. -/
def followsUp (t : Tasks) : Input → Bool
  | .receive draws =>
    match t.answer, t.arrivals with
    | none, (route, packet) :: _ =>
      match repairNonce packet, ShredLayout.getSlot packet with
      | some nonce, some slot =>
        ((t.manager.outstanding.remove slot nonce route).2.any (fun entry => entry.kind = .highestWindowIndex)) &&
          (ShredLayout.getIndex packet).isSome && (ShredLayout.getFlags packet).any (fun flags => !flags.lastShredInSlot) &&
          (draws 0).isSome
      | _, _ => false
    | _, _ => false
  | _ => false

/-- Each record says what the bytes of its request ask for. -/
def AsRecorded [RepairSigner] (mapper : RepairRequestMapper) (t : Tasks) (input : Input) : Prop :=
  List.Forall₂ (fun record request => ∀ timestamp, Encodes mapper record (request.wire mapper timestamp))
    (t.handsOver input).1 (t.handsOver input).2

theorem asRecorded_iff [RepairSigner] (fills : RepairSigner.FillsIn) {mapper : RepairRequestMapper} {t : Tasks} {input : Input} :
    t.AsRecorded mapper input ↔ (t.handsOver input).1 = (t.handsOver input).2.map SocketRequest.record := by
  unfold AsRecorded
  simp only [encodes_iff fills, forall_const]
  rw [← List.forall₂_eq_eq_eq, List.forall₂_map_right_iff]

theorem process_records (t : Tasks) (draws : Nat → Draw) :
    (t.handsOver (.process draws)).1 = (t.handsOver (.process draws)).2.map SocketRequest.record := by
  unfold handsOver
  dsimp only
  cases busy : t.processor with
  | some waiting => rfl
  | none =>
    unfold process
    rw [busy]
    cases queue : t.manager.requests with
    | nil => rw [busy]; rfl
    | cons request rest =>
      cases served : t.manager.socketReqs draws request with
      | none =>
        cases request with
        | cancelRepair slot => simp
        | _ => simp [served]
      | some both =>
        obtain ⟨announced, batch⟩ := both
        have records := announcedIn_socketReqs served
        cases request with
        | cancelRepair slot => cases served
        | _ =>
          simp only [served]
          rw [createdIn_map]
          exact records

theorem outstanding_records (t : Tasks) (draw : Draw) :
    (t.handsOver (.outstanding draw)).1 = (t.handsOver (.outstanding draw)).2.map SocketRequest.record := by
  unfold handsOver
  dsimp only
  cases busy : t.retry with
  | some waiting => rfl
  | none =>
    unfold outstanding
    rw [busy]
    cases queue : t.manager.messages with
    | nil => rw [busy]; rfl
    | cons message rest =>
      cases message with
      | new request => simp
      | timeout request =>
        rcases removed : t.manager.outstanding.remove request.slot request.nonce request.target.route with ⟨store, _ | entry⟩
        · simp [removed]
        · cases drawn : mapShred draw request.slot request.shred request.kind with
          | none => simp [removed, drawn]
          | some again =>
            obtain ⟨peer, -, rfl⟩ := Option.map_eq_some_iff.mp drawn
            simp [removed, drawn, SocketRequest.record]

/-- An answer that says nothing of the slot's end, or where it is, is followed up by nothing. -/
theorem followed_none {draws : Nat → Draw} {packet : PacketInfo} {reqShredIndex : UInt32} {slot : UInt64}
    (slotRead : ShredLayout.getSlot packet = some slot) (followed : handleUnboundedPacketResponse draws packet reqShredIndex = none) :
    ShredLayout.getIndex packet = none ∨ ShredLayout.getFlags packet = none := by
  unfold handleUnboundedPacketResponse at followed
  rw [slotRead] at followed
  cases flagsRead : ShredLayout.getFlags packet with
  | none => exact .inr rfl
  | some flags =>
    cases indexRead : ShredLayout.getIndex packet with
    | none => exact .inl rfl
    | some index =>
      rw [flagsRead, indexRead] at followed
      cases followed

theorem followed_some {draws : Nat → Draw} {packet : PacketInfo} {reqShredIndex : UInt32}
    {answer : List OutstandingRequestMsg × List SocketRequest}
    (followed : handleUnboundedPacketResponse draws packet reqShredIndex = some answer) :
    (ShredLayout.getIndex packet).isSome = true := by
  unfold handleUnboundedPacketResponse at followed
  split at followed
  next indexRead _ =>
    rw [indexRead]
    rfl
  · cases followed

theorem receive_records (t : Tasks) (draws : Nat → Draw) :
    (t.handsOver (.receive draws)).1 = (t.handsOver (.receive draws)).2.map SocketRequest.record ↔
      t.followsUp (.receive draws) = false := by
  cases busy : t.answer with
  | some waiting => simp [handsOver, followsUp, busy]
  | none =>
    cases queue : t.arrivals with
    | nil => simp [handsOver, followsUp, receive, busy, queue]
    | cons arrival rest =>
      obtain ⟨route, packet⟩ := arrival
      cases nonceRead : repairNonce packet with
      | none => simp [handsOver, followsUp, receive, busy, queue, nonceRead]
      | some nonce =>
        cases slotRead : ShredLayout.getSlot packet with
        | none => simp [handsOver, followsUp, receive, busy, queue, nonceRead, slotRead]
        | some slot =>
          rcases removed : t.manager.outstanding.remove slot nonce route with ⟨store, _ | entry⟩
          · simp [handsOver, followsUp, receive, busy, queue, nonceRead, slotRead, removed]
          by_cases highest : entry.kind = .highestWindowIndex
          · cases followed : handleUnboundedPacketResponse draws packet entry.shredIndex with
            | none =>
              obtain unread | unread := followed_none slotRead followed
              · simp [handsOver, followsUp, receive, busy, queue, nonceRead, slotRead, removed, highest, followed, unread]
              · simp [handsOver, followsUp, receive, busy, queue, nonceRead, slotRead, removed, highest, followed, unread]
            | some both =>
              obtain ⟨announced, batch⟩ := both
              have handed : t.handsOver (.receive draws) = (announcedIn announced, batch) := by
                simp only [handsOver, receive, busy, queue, nonceRead, slotRead, removed, highest, followed, if_true]
                exact Prod.ext (createdIn_map (announcedIn announced)) rfl
              rw [handed, announcedIn_followUps followed]
              simp [followsUp, busy, queue, nonceRead, slotRead, removed, highest, followed_some followed]
          · simp [handsOver, followsUp, receive, busy, queue, nonceRead, slotRead, removed, highest]

theorem records_iff (t : Tasks) (input : Input) :
    (t.handsOver input).1 = (t.handsOver input).2.map SocketRequest.record ↔ t.followsUp input = false := by
  cases input with
  | process draws => exact iff_of_true (t.process_records draws) rfl
  | outstanding draw => exact iff_of_true (t.outstanding_records draw) rfl
  | receive draws => exact t.receive_records draws
  | _ => exact iff_of_true rfl rfl

/-- In a run every request is recorded as its bytes have it, as long as no answer to an unbounded request is followed up
by another one. -/
theorem recorded_as_sent_iff [RepairSigner] (fills : RepairSigner.FillsIn) (mapper : RepairRequestMapper)
    (inputs : List Input) :
    Meets step (fun t input => t.AsRecorded mapper input) new inputs ↔
      Meets step (fun t input => t.followsUp input = false) new inputs :=
  meets_congr (fun t input => (asRecorded_iff fills).trans (t.records_iff input)) inputs

omit [ShredLayout]

/-- Signatures of zeros. -/
abbrev zeroSigner : RepairSigner where
  repairProtoToBytes request := serialize (Protocol.signed request noSignature)

theorem fillsIn_zeroSigner : @RepairSigner.FillsIn zeroSigner := fun _ _ => ⟨noSignature, rfl⟩

def nearPeer : RepairTarget := .udp ⟨.v4 0xC6336401, 8008⟩ 3

/-- Shred 3 of slot 7, not flagged, with the nonce its last bytes spell. -/
def fourthShred : PacketInfo := wireShred ⟨.data, 7, 3, 1, 0⟩ 0

/-- The highest shred of slot 7 is asked for, and one that is not the last comes back. -/
def askAndHearFourth : List Input :=
  .request (.missingUnboundedShreds 7 [] 0) :: turnOf .processor (.process (fun _ => some (nearPeer, 88 * 65536))) ++
    [.outstanding none, .arrive nearPeer.route fourthShred]

theorem recorded_as_sent_iff_heard :
    Meets (@step wireLayout) (fun t input => @AsRecorded wireLayout zeroSigner ⟨9⟩ t input) new askAndHearFourth ↔
      Meets (@step wireLayout) (fun t input => @followsUp wireLayout t input = false) new askAndHearFourth :=
  @recorded_as_sent_iff wireLayout zeroSigner fillsIn_zeroSigner ⟨9⟩ askAndHearFourth

/-- Index 4 is asked for and index 3 remembered. -/
theorem follow_up_recorded_low :
    (@handsOver wireLayout (run (@step wireLayout) new askAndHearFourth).1 (.receive (fun _ => some (nearPeer, 6)))).1 =
        [⟨.windowIndex, 6, 7, 0, nearPeer⟩, ⟨.windowIndex, 6, 7, 1, nearPeer⟩, ⟨.windowIndex, 6, 7, 2, nearPeer⟩,
          ⟨.highestWindowIndex, 6, 7, 3, nearPeer⟩] ∧
      (@handsOver wireLayout (run (@step wireLayout) new askAndHearFourth).1 (.receive (fun _ => some (nearPeer, 6)))).2 =
        [⟨nearPeer, 6, .windowIndex, 7, 0⟩, ⟨nearPeer, 6, .windowIndex, 7, 1⟩, ⟨nearPeer, 6, .windowIndex, 7, 2⟩,
          ⟨nearPeer, 6, .highestWindowIndex, 7, 4⟩] ∧
      ¬ Meets (@step wireLayout) (fun t input => @AsRecorded wireLayout zeroSigner ⟨9⟩ t input) new
        (askAndHearFourth ++ [.receive (fun _ => some (nearPeer, 6))]) := by
  refine ⟨by decide, by decide, ?_⟩
  rw [meets_concat]
  rintro ⟨-, here⟩
  rw [@asRecorded_iff wireLayout zeroSigner fillsIn_zeroSigner] at here
  revert here
  decide

end Tasks

end Lightbringer.Repair
