import Lightbringer.Lib.Machine
import Lightbringer.RepairDelivery.Serve

/-!
# Whom a response goes to

Every response answers the packet just received, with the shred stored for it, at the address it came from. That the
sender named in the header has signed the request is nowhere checked, so a response is authentic exactly if the request
happens to be.
-/

namespace Lightbringer.RepairDelivery
open Std Bincode Machine Overlay Store ServeRepair

/-! ### Authentic responses -/

/-- What the sender of a request signs: the packet without the signature. -/
def signedBytes (packet : PacketView) : List UInt8 := packet.bytes.take 4 ++ packet.bytes.drop (4 + signatureLength)

def Signed [Ed25519] (packet : PacketView) (header : RepairRequestHeader) : Prop :=
  Ed25519.verify header.sender (signedBytes packet) header.signature.val = true

/-- The shred is the one stored for the request. -/
def HeldFor (entries : TreeMap Nat ShredInfoView) (shred : ShredInfoView) : RepairProtocol → Prop
  | .windowIndex _ slot shredIndex => HeldAt entries slot shredIndex shred
  | .highestWindowIndex _ slot shredIndex => HighestHeld entries slot shredIndex shred
  | _ => False

/-- The response answers a request for a shred that has just come from where the response goes. -/
structure AnswersRequest (myId : Pubkey) (turn : Turn) (dest : SocketAddr) (raw : List UInt8) (packet : PacketView)
    (request : RepairProtocol) (header : RepairRequestHeader) : Prop where
  received : turn.received = some (packet, dest)
  carries : packet.bytes = serialize request
  asks : request.shredHeader = some header
  recipient : header.recipient = myId
  recent : turn.timestamp.toNat ≤ header.timestamp.toNat + 600000 ∧ header.timestamp.toNat ≤ turn.timestamp.toNat + 600000
  holds : ∃ entries shred, turn.shredStore.shredKeyspace = .ok entries ∧ HeldFor entries shred request ∧
    raw = shred ++ fixed 4 header.nonce.toNat

def Authentic [Ed25519] (myId : Pubkey) (turn : Turn) (dest : SocketAddr) (raw : List UInt8) : Prop :=
  ∃ packet request header, AnswersRequest myId turn dest raw packet request header ∧ Signed packet header

/-! ### What is answered -/

def lookup (store : ShredStore) : RepairProtocol → Except FjallError (Option ShredInfoView)
  | .windowIndex _ slot shredIndex => store.getShred slot shredIndex
  | .highestWindowIndex _ slot shredIndex => store.getHighestDataShredFrom slot shredIndex
  | _ => .ok none

/-- A packet that is answered with a shred. -/
structure Serves {Keypair : Type} [PingPong Keypair] (task : ServeRepair Keypair) (turn : Turn) (packet : PacketView)
    (fromAddr : SocketAddr) (request : RepairProtocol) (header : RepairRequestHeader) (shred : ShredInfoView) : Prop where
  received : turn.received = some (packet, fromAddr)
  noPing : handlePing task.keypair packet fromAddr = none
  admitted : (task.rateLimit fromAddr turn.now).2 = true
  decoded : deserializeRequest packet = some request
  asks : request.shredHeader = some header
  valid : validateHeader header task.myId turn.timestamp = true
  found : lookup turn.shredStore request = .ok (some shred)
  fits : shred.length + sizeOfNonce ≤ packetDataSize

section

variable {stats : ServeRepairStats} {nonce : Repair.Nonce}
  {fromAddr dest : SocketAddr} {raw : List UInt8} {turn : Turn} {myId : Pubkey} {request : RepairProtocol}

theorem response_answer {found : Except FjallError (Option ShredInfoView)} : .response dest raw ∈ (answer stats found nonce fromAddr).2 ↔
    dest = fromAddr ∧ ∃ shred, found = .ok (some shred) ∧ shred.length + sizeOfNonce ≤ packetDataSize ∧
      raw = shred ++ fixed 4 nonce.toNat := by
  unfold answer buildShredResponse
  constructor
  · intro sent
    split at sent
    next shred =>
      by_cases big : shred.length + sizeOfNonce > packetDataSize
      · rw [if_pos big] at sent
        cases sent
      · rw [if_neg big] at sent
        cases List.mem_singleton.mp sent
        exact ⟨rfl, shred, rfl, Nat.le_of_not_lt big, rfl⟩
    next => cases sent
    next => cases sent
  · rintro ⟨rfl, shred, rfl, fits, rfl⟩
    dsimp only
    rw [if_neg (Nat.not_lt_of_le fits)]
    exact List.mem_singleton_self _

theorem response_handleRequest :
    (∃ after, handleRequest stats myId turn fromAddr request = .ok after ∧ .response dest raw ∈ after.2) ↔
    ∃ header shred, request.shredHeader = some header ∧ validateHeader header myId turn.timestamp = true ∧
      lookup turn.shredStore request = .ok (some shred) ∧ shred.length + sizeOfNonce ≤ packetDataSize ∧
      dest = fromAddr ∧ raw = shred ++ fixed 4 header.nonce.toNat := by
  -- The two variants that ask for a shred differ in the lookup alone.
  have checked : ∀ (header : RepairRequestHeader) (refused tried : ServeRepairStats)
      (found : Except FjallError (Option ShredInfoView)),
      (∃ after, (if !validateHeader header myId turn.timestamp then .error refused
        else .ok (answer tried found header.nonce fromAddr) :
          Except ServeRepairStats (ServeRepairStats × List Event)) = .ok after ∧ .response dest raw ∈ after.2) ↔
      ∃ named shred, some header = some named ∧ validateHeader named myId turn.timestamp = true ∧
        found = .ok (some shred) ∧ shred.length + sizeOfNonce ≤ packetDataSize ∧
        dest = fromAddr ∧ raw = shred ++ fixed 4 named.nonce.toNat := by
    intro header refused tried found
    cases valid : validateHeader header myId turn.timestamp with
    | false =>
      constructor
      · rintro ⟨_, ended, _⟩
        cases ended
      · rintro ⟨_, _, same, passed, _⟩
        cases same
        rw [valid] at passed
        cases passed
    | true =>
      constructor
      · rintro ⟨_, answered, sent⟩
        cases answered
        obtain ⟨goes, shred, held, fits, same⟩ := response_answer.mp sent
        exact ⟨header, shred, rfl, valid, held, fits, goes, same⟩
      · rintro ⟨_, shred, same, _, held, fits, goes, bytes⟩
        cases same
        exact ⟨_, rfl, response_answer.mpr ⟨goes, shred, held, fits, bytes⟩⟩
  cases request with
  | windowIndex header slot shredIndex => exact checked header _ _ _
  | highestWindowIndex header slot shredIndex => exact checked header _ _ _
  | _ => simp [handleRequest, RepairProtocol.shredHeader]

end

section

variable {Keypair : Type} [PingPong Keypair] {task : ServeRepair Keypair} {turn : Turn} {packet : PacketView}
  {fromAddr dest : SocketAddr} {raw : List UInt8}

omit [PingPong Keypair] in
theorem response_reportStatsIfNeeded (now : Instant) : .response dest raw ∉ (task.reportStatsIfNeeded now).2 := by
  unfold reportStatsIfNeeded
  split
  · simp
  · simp

omit [PingPong Keypair] in
theorem response_serve : .response dest raw ∈ (task.serve packet fromAddr turn).2 ↔
    (task.rateLimit fromAddr turn.now).2 = true ∧ ∃ request, deserializeRequest packet = some request ∧
      ∃ after, handleRequest task.stats task.myId turn fromAddr request = .ok after ∧ .response dest raw ∈ after.2 := by
  unfold serve
  cases admitted : (task.rateLimit fromAddr turn.now).2 with
  | false => simp [admitted, response_reportStatsIfNeeded]
  | true =>
    cases decoded : deserializeRequest packet with
    | none => simp [admitted, response_reportStatsIfNeeded]
    | some request =>
      cases handled : handleRequest task.stats task.myId turn fromAddr request with
      | error stats => simp [admitted, handled, response_reportStatsIfNeeded]
      | ok after =>
        obtain ⟨stats, sent⟩ := after
        simp [admitted, handled, response_reportStatsIfNeeded]

/-- What a turn sends as responses. -/
theorem response_step : .response dest raw ∈ (task.step turn).2 ↔
    ∃ packet request header shred, Serves task turn packet dest request header shred ∧
      raw = shred ++ fixed 4 header.nonce.toNat := by
  unfold step
  constructor
  · intro sent
    split at sent
    · cases sent
    next packet fromAddr received =>
      split at sent
      next pong handled =>
        unfold handlePing at handled
        split at handled
        · cases handled
        · split at handled
          · cases handled
          · split at handled
            · cases handled
              cases List.mem_singleton.mp sent
            · cases handled
      next noPing =>
        obtain ⟨admitted, request, decoded, answered⟩ := response_serve.mp sent
        obtain ⟨header, shred, asks, valid, found, fits, rfl, same⟩ := response_handleRequest.mp answered
        exact ⟨packet, request, header, shred, ⟨received, noPing, admitted, decoded, asks, valid, found, fits⟩, same⟩
  · rintro ⟨packet, request, header, shred, serves, same⟩
    rw [serves.received]
    dsimp only
    rw [serves.noPing]
    refine response_serve.mpr ⟨serves.admitted, request, serves.decoded, response_handleRequest.mpr ?_⟩
    exact ⟨header, shred, serves.asks, serves.valid, serves.found, serves.fits, rfl, same⟩

/-! ### What is checked -/

theorem validateHeader_iff {header : RepairRequestHeader} {myId : Pubkey} {timestamp : UInt64} :
    validateHeader header myId timestamp = true ↔ header.sender ≠ myId ∧ header.recipient = myId ∧
      timestamp.toNat ≤ header.timestamp.toNat + 600000 ∧ header.timestamp.toNat ≤ timestamp.toNat + 600000 := by
  unfold validateHeader
  split
  next own => simp [own]
  next other =>
    split
    next elsewhere => simp [elsewhere]
    next here =>
      have away : header.recipient = myId := not_not.mp here
      split
      next apart =>
        simp only [Bool.false_eq_true, false_iff]
        rintro ⟨_, _, early, late⟩
        omega
      next near =>
        simp only [true_iff]
        exact ⟨other, away, by omega, by omega⟩

theorem heldFor_of_lookup {store : ShredStore} {request : RepairProtocol} {shred : ShredInfoView}
    (found : lookup store request = .ok (some shred)) :
    ∃ entries, store.shredKeyspace = .ok entries ∧ HeldFor entries shred request := by
  cases request with
  | windowIndex header slot shredIndex => exact heldAt_of_getShred found
  | highestWindowIndex header slot shredIndex => exact highestHeld_of_getHighestDataShredFrom found
  | _ => cases found

/-- Signature apart, a packet that is answered is what the response says it is. -/
theorem answersRequest_of_serves {request : RepairProtocol} {header : RepairRequestHeader} {shred : ShredInfoView}
    (serves : Serves task turn packet dest request header shred) :
    AnswersRequest task.myId turn dest (shred ++ fixed 4 header.nonce.toNat) packet request header := by
  obtain ⟨_, recipient, recent⟩ := validateHeader_iff.mp serves.valid
  obtain ⟨entries, read, held⟩ := heldFor_of_lookup serves.found
  exact ⟨serves.received, deserializeRequest_iff.mp serves.decoded, serves.asks, recipient, recent,
    entries, shred, read, held, rfl⟩

/-! ### Runs -/

variable [Ed25519]

/-- A request that is answered carries a signature of the sender it names. -/
def SignedIfServed (task : ServeRepair Keypair) (turn : Turn) : Prop :=
  ∀ packet fromAddr request header shred, Serves task turn packet fromAddr request header shred → Signed packet header

/-- Every response of the run is authentic. -/
def ServesAuthentically (task : ServeRepair Keypair) (turns : List Turn) : Prop :=
  ∀ before turn after, turns = before ++ turn :: after →
    ∀ dest raw, .response dest raw ∈ ((run step task before).1.step turn).2 → Authentic task.myId turn dest raw

theorem authentic_turn_iff : (∀ dest raw, .response dest raw ∈ (task.step turn).2 → Authentic task.myId turn dest raw) ↔
    SignedIfServed task turn := by
  constructor
  · intro authentic packet fromAddr request header shred serves
    obtain ⟨packet', request', header', answers, signed⟩ := authentic fromAddr _ (response_step.mpr
      ⟨packet, request, header, shred, serves, rfl⟩)
    -- The packet of the turn has one reading.
    have samePacket : packet' = packet := by
      have received := answers.received
      rw [serves.received] at received
      cases received
      rfl
    have sameRequest : request' = request := by
      have decoded := deserializeRequest_iff.mpr answers.carries
      rw [samePacket, serves.decoded] at decoded
      exact (Option.some.inj decoded).symm
    have sameHeader : header' = header := by
      have asks := answers.asks
      rw [sameRequest, serves.asks] at asks
      exact (Option.some.inj asks).symm
    rwa [samePacket, sameHeader] at signed
  · intro signed dest raw sent
    obtain ⟨packet, request, header, shred, serves, rfl⟩ := response_step.mp sent
    exact ⟨packet, request, header, answersRequest_of_serves serves, signed _ _ _ _ _ serves⟩

omit [Ed25519] in
theorem myId_step (task : ServeRepair Keypair) (turn : Turn) : (task.step turn).1.myId = task.myId := by
  have report : ∀ (task : ServeRepair Keypair) now, (task.reportStatsIfNeeded now).1.myId = task.myId := by
    intro task now
    unfold reportStatsIfNeeded
    split <;> rfl
  have clean : ∀ (task : ServeRepair Keypair) now, (task.cleanUp now).myId = task.myId := by
    intro task now
    unfold cleanUp
    split <;> rfl
  unfold step
  split
  · rfl
  · split
    · rfl
    · unfold serve
      dsimp only
      split
      · exact report _ _
      · split
        · exact report _ _
        · split
          · exact report _ _
          · rw [clean, report]

omit [Ed25519] in
theorem myId_run (task : ServeRepair Keypair) (turns : List Turn) : (run step task turns).1.myId = task.myId :=
  run_frame (f := fun task : ServeRepair Keypair => task.myId) myId_step turns task

theorem serves_authentically_iff (task : ServeRepair Keypair) (turns : List Turn) :
    ServesAuthentically task turns ↔ Meets step SignedIfServed task turns := by
  rw [meets_iff_prefixes]
  constructor
  · intro authentic before turn after split
    rw [← authentic_turn_iff, myId_run]
    exact authentic before turn after split
  · intro signed before turn after split
    have here := signed before turn after split
    rwa [← authentic_turn_iff, myId_run] at here

end

/-! ### A request nobody has signed -/

section

open PlainSignatures

/-- No packet here is as long as a ping. -/
scoped instance noPings : PingPong Unit where
  Ping := Unit
  serializedPingBytes := 132
  readPing _ := none
  verify _ := false
  rawPong _ _ := []

/-- A request in the name of identity 2, with zeros for a signature. -/
def unsignedHeader : RepairRequestHeader := ⟨⟨List.replicate 64 0, by decide⟩, 2, 1, 1000, 7⟩

def unsignedPacket : PacketView := ⟨serialize (RepairProtocol.windowIndex unsignedHeader 5 0), by decide +kernel⟩

def victimAddr : SocketAddr := ⟨.v4 0xC0000207, 8001⟩

/-- The packet has the victim's address as its source. -/
def spoofedTurn : Turn :=
  ⟨some (unsignedPacket, victimAddr), 0, 1000, 0, ⟨.ok (TreeMap.empty.insert (makeKey 5 0) [1, 2, 3])⟩⟩

def servingTask : ServeRepair Unit := .new () 1 0

theorem serves_unsigned :
    Serves servingTask spoofedTurn unsignedPacket victimAddr (.windowIndex unsignedHeader 5 0) unsignedHeader [1, 2, 3] where
  received := rfl
  noPing := by decide +kernel
  admitted := by decide
  decoded := deserializeRequest_iff.mpr rfl
  asks := rfl
  valid := by decide
  found := by
    have key : makeKeyFromRequest 5 0 = some (makeKey 5 0) := by decide
    simp [lookup, ShredStore.getShred, key, spoofedTurn, Except.map]
  fits := by decide

theorem unsigned_request_served :
    .response victimAddr [1, 2, 3, 7, 0, 0, 0] ∈ (run step servingTask [spoofedTurn]).2 ∧
    ¬ ServesAuthentically servingTask [spoofedTurn] := by
  refine ⟨?_, fun authentic => ?_⟩
  · have bytes : [1, 2, 3, 7, 0, 0, 0] = [1, 2, 3] ++ fixed 4 unsignedHeader.nonce.toNat := by decide +kernel
    have sent : .response victimAddr [1, 2, 3, 7, 0, 0, 0] ∈ (servingTask.step spoofedTurn).2 :=
      response_step.mpr ⟨_, _, _, _, serves_unsigned, bytes⟩
    simpa only [run_cons, run_nil, List.append_nil] using sent
  · have signed := ((serves_authentically_iff servingTask [spoofedTurn]).mp authentic).1
    have refused : ¬ Signed unsignedPacket unsignedHeader := by
      unfold Signed
      decide +kernel
    exact refused (signed _ _ _ _ _ serves_unsigned)

end

end Lightbringer.RepairDelivery
