import Lightbringer.Overlay.Packet
import Lightbringer.Repair.Messages
import Lightbringer.Store.ShredStore

/-!
# Serving repairs over UDP

`repair_delivery/mod.rs`: the requests as this crate declares them, the header check, the rate limit of each address and
the loop that answers from the shred store.
-/

namespace Lightbringer.RepairDelivery
open Std Bincode Overlay Store

def maxRequestsPerSecond : Nat := 100
def rateLimitWindowSecs : Nat := 1
def statsReportIntervalSecs : Nat := 10
def sizeOfNonce : Nat := 4

/-- `Duration::as_secs` of what has passed since then. -/
def secsSince (start now : Instant) : Nat := (now - start) / fromSecs 1

/-- The pings of `solana_gossip` and what `solana_core` does with them, of which only the interface is known here. -/
class PingPong (Keypair : Type) where
  Ping : Type
  /-- `REPAIR_RESPONSE_SERIALIZED_PING_BYTES`. -/
  serializedPingBytes : Nat
  /-- `bincode::deserialize` of a `RepairResponse::Ping`. -/
  readPing : List UInt8 → Option Ping
  verify : Ping → Bool
  /-- A `RepairProtocol::Pong` with the answer, as it is sent. -/
  rawPong : Keypair → Ping → List UInt8

/-! ### Requests -/

structure RepairRequestHeader where
  signature : SignatureArray
  sender : Pubkey
  recipient : Pubkey
  timestamp : UInt64
  nonce : Repair.Nonce
  deriving DecidableEq

structure Pong where
  sender : Pubkey
  hash : Hash
  signature : SignatureArray
  deriving DecidableEq

inductive RepairProtocol where
  | legacyWindowIndex
  | legacyHighestWindowIndex
  | legacyOrphan
  | legacyWindowIndexWithNonce
  | legacyHighestWindowIndexWithNonce
  | legacyOrphanWithNonce
  | legacyAncestorHashes
  | pong (pong : Pong)
  | windowIndex (header : RepairRequestHeader) (slot shredIndex : UInt64)
  | highestWindowIndex (header : RepairRequestHeader) (slot shredIndex : UInt64)
  | orphan (header : RepairRequestHeader) (slot : UInt64)
  | ancestorHashes (header : RepairRequestHeader) (slot : UInt64)
  deriving DecidableEq

instance : Serde RepairRequestHeader :=
  Serde.via
    (fun fields : SignatureArray × Pubkey × Pubkey × UInt64 × Repair.Nonce =>
      ⟨fields.1, fields.2.1, fields.2.2.1, fields.2.2.2.1, fields.2.2.2.2⟩)
    (fun header => (header.signature, header.sender, header.recipient, header.timestamp, header.nonce)) (fun _ => rfl)
    (fun _ => rfl)

instance : Serde Pong :=
  Serde.via (fun fields : Pubkey × Hash × SignatureArray => ⟨fields.1, fields.2.1, fields.2.2⟩)
    (fun pong => (pong.sender, pong.hash, pong.signature)) (fun _ => rfl) (fun _ => rfl)

namespace RepairProtocol

/-- The place of the variant in the enumeration. -/
def tag : RepairProtocol → Nat
  | legacyWindowIndex => 0
  | legacyHighestWindowIndex => 1
  | legacyOrphan => 2
  | legacyWindowIndexWithNonce => 3
  | legacyHighestWindowIndexWithNonce => 4
  | legacyOrphanWithNonce => 5
  | legacyAncestorHashes => 6
  | pong _ => 7
  | windowIndex .. => 8
  | highestWindowIndex .. => 9
  | orphan .. => 10
  | ancestorHashes .. => 11

def content : RepairProtocol → List UInt8
  | pong answer => serialize answer
  | windowIndex header slot shredIndex => serialize (header, slot, shredIndex)
  | highestWindowIndex header slot shredIndex => serialize (header, slot, shredIndex)
  | orphan header slot => serialize (header, slot)
  | ancestorHashes header slot => serialize (header, slot)
  | _ => []

def variant : Nat → Decoder RepairProtocol
  | 0 => return legacyWindowIndex
  | 1 => return legacyHighestWindowIndex
  | 2 => return legacyOrphan
  | 3 => return legacyWindowIndexWithNonce
  | 4 => return legacyHighestWindowIndexWithNonce
  | 5 => return legacyOrphanWithNonce
  | 6 => return legacyAncestorHashes
  | 7 => pong <$> Serde.read
  | 8 => (fun fields : RepairRequestHeader × UInt64 × UInt64 => windowIndex fields.1 fields.2.1 fields.2.2) <$> Serde.read
  | 9 =>
    (fun fields : RepairRequestHeader × UInt64 × UInt64 => highestWindowIndex fields.1 fields.2.1 fields.2.2) <$>
      Serde.read
  | 10 => (fun fields : RepairRequestHeader × UInt64 => orphan fields.1 fields.2) <$> Serde.read
  | 11 => (fun fields : RepairRequestHeader × UInt64 => ancestorHashes fields.1 fields.2) <$> Serde.read
  | _ => failure

theorem tag_lt (request : RepairProtocol) : request.tag < 256 ^ 4 := by
  cases request <;> simp [tag]

theorem variant_iff (n : Nat) (raw : List UInt8) (request : RepairProtocol) (rest : List UInt8) :
    variant n raw = some (request, rest) ↔ request.tag = n ∧ raw = request.content ++ rest := by
  rcases n with _ | _ | _ | _ | _ | _ | _ | _ | _ | _ | _ | _ | n <;> cases request <;>
    simp [variant, tag, content, serialize, Decoder.pure_iff, Decoder.failure_iff, Decoder.map_iff, Serde.reads]

instance : Serde RepairProtocol := Serde.enumeration 4 tag content variant tag_lt variant_iff

/-- The header of a request for a shred. -/
def shredHeader : RepairProtocol → Option RepairRequestHeader
  | windowIndex header _ _ => some header
  | highestWindowIndex header _ _ => some header
  | _ => none

end RepairProtocol

/-- `bincode` with fixed-width numbers and no trailing bytes. -/
def deserializeRequest (packet : PacketView) : Option RepairProtocol :=
  Decoder.whole Serde.read packet.bytes.length packet.bytes

theorem deserializeRequest_iff {packet : PacketView} {request : RepairProtocol} :
    deserializeRequest packet = some request ↔ packet.bytes = serialize request := by
  unfold deserializeRequest Decoder.whole
  rw [if_neg (Nat.lt_irrefl _)]
  constructor
  · intro read
    split at read
    next value taken =>
      have whole := (Serde.reads _ _ _).mp taken
      rw [List.append_nil] at whole
      rw [whole, Option.some.inj read]
      rfl
    next => cases read
  · intro same
    have taken : Serde.read packet.bytes = some (request, []) :=
      (Serde.reads _ _ _).mpr (by rw [same, List.append_nil]; rfl)
    rw [taken]

/-! ### Answers -/

def buildShredResponse (shredData : ShredInfoView) (nonce : Repair.Nonce) : Option (List UInt8) :=
  if shredData.length + sizeOfNonce > packetDataSize then none else some (shredData ++ fixed 4 nonce.toNat)

/-- The times are milliseconds since the epoch. The signature is not looked at. -/
def validateHeader (header : RepairRequestHeader) (myId : Pubkey) (timestamp : UInt64) : Bool :=
  if header.sender = myId then false
  else if header.recipient ≠ myId then false
  else if max timestamp.toNat header.timestamp.toNat - min timestamp.toNat header.timestamp.toNat > 10 * 60 * 1000 then false
  else true

structure PeerRateLimit where
  count : Nat
  windowStart : Instant

namespace PeerRateLimit

def new (now : Instant) : PeerRateLimit := ⟨0, now⟩

def checkAndIncrement (limit : PeerRateLimit) (now : Instant) : PeerRateLimit × Bool :=
  let limit := if rateLimitWindowSecs ≤ secsSince limit.windowStart now then ⟨0, now⟩ else limit
  if maxRequestsPerSecond ≤ limit.count then (limit, false) else ({ limit with count := limit.count + 1 }, true)

end PeerRateLimit

structure ServeRepairStats where
  windowIndex : Nat
  highestWindowIndex : Nat
  orphan : Nat
  ancestorHashes : Nat
  pong : Nat
  legacy : Nat
  served : Nat
  rateLimited : Nat
  dropDeserialize : Nat
  dropHeaderInvalid : Nat
  dropNotFound : Nat
  dropFjallError : Nat
  dropOversized : Nat
  dropUnsupported : Nat

namespace ServeRepairStats

/-- `Default`. -/
def empty : ServeRepairStats := ⟨0, 0, 0, 0, 0, 0, 0, 0, 0, 0, 0, 0, 0, 0⟩

def totalDropped (stats : ServeRepairStats) : Nat :=
  stats.dropDeserialize + stats.dropHeaderInvalid + stats.dropNotFound + stats.dropFjallError + stats.dropOversized +
    stats.dropUnsupported

end ServeRepairStats

/-- What the task does to the outside. -/
inductive Event where
  | pong (dest : SocketAddr) (raw : List UInt8)
  | response (dest : SocketAddr) (raw : List UInt8)
  | measured (served dropped rateLimited : Nat)

/-! ### The loop -/

/-- The task between two packets. -/
structure ServeRepair (Keypair : Type) where
  keypair : Keypair
  myId : Pubkey
  rateLimits : TreeMap SocketAddr PeerRateLimit
  stats : ServeRepairStats
  lastStatsReport : Instant
  lastRateLimitCleanup : Instant

/-- What a turn of the loop reads: a packet, unless receiving failed, the clocks when it has arrived and when it is done
with, and the shred store. -/
structure Turn where
  received : Option (PacketView × SocketAddr)
  now : Instant
  timestamp : UInt64
  done : Instant
  shredStore : ShredStore

namespace ServeRepair

variable {Keypair : Type} [PingPong Keypair] (task : ServeRepair Keypair)

def new (keypair : Keypair) (myId : Pubkey) (now : Instant) : ServeRepair Keypair :=
  ⟨keypair, myId, .empty, .empty, now, now⟩

/-- The pong that is sent, if the packet is a ping. -/
def handlePing (keypair : Keypair) (packet : PacketView) (fromAddr : SocketAddr) : Option Event :=
  if packet.bytes.length ≠ PingPong.serializedPingBytes Keypair then none
  else
    match (PingPong.readPing packet.bytes : Option (PingPong.Ping Keypair)) with
    | none => none
    | some ping => if PingPong.verify ping then some (.pong fromAddr (PingPong.rawPong keypair ping)) else none

def reportStatsIfNeeded (now : Instant) : ServeRepair Keypair × List Event :=
  if statsReportIntervalSecs ≤ secsSince task.lastStatsReport now then
    ({ task with stats := .empty, lastStatsReport := now },
      [.measured task.stats.served task.stats.totalDropped task.stats.rateLimited])
  else (task, [])

/-- Idle entries are forgotten. -/
def cleanUp (now : Instant) : ServeRepair Keypair :=
  if 60 ≤ secsSince task.lastRateLimitCleanup now then
    { task with
      rateLimits := task.rateLimits.filter (fun _ limit => secsSince limit.windowStart now < 30)
      lastRateLimitCleanup := now }
  else task

/-- A shred that was looked up, or not found, for a request. -/
def answer (stats : ServeRepairStats) (found : Except FjallError (Option ShredInfoView)) (nonce : Repair.Nonce)
    (fromAddr : SocketAddr) : ServeRepairStats × List Event :=
  match found with
  | .ok (some shredData) =>
    match buildShredResponse shredData nonce with
    | some response => ({ stats with served := stats.served + 1 }, [.response fromAddr response])
    | none => ({ stats with dropOversized := stats.dropOversized + 1 }, [])
  | .ok none => ({ stats with dropNotFound := stats.dropNotFound + 1 }, [])
  | .error _ => ({ stats with dropFjallError := stats.dropFjallError + 1 }, [])

/-- The match on a request. An error is where the turn ends before the clean-up. -/
def handleRequest (stats : ServeRepairStats) (myId : Pubkey) (turn : Turn) (fromAddr : SocketAddr) :
    RepairProtocol → Except ServeRepairStats (ServeRepairStats × List Event)
  | .windowIndex header slot shredIndex =>
    let stats := { stats with windowIndex := stats.windowIndex + 1 }
    if !validateHeader header myId turn.timestamp then
      .error { stats with dropHeaderInvalid := stats.dropHeaderInvalid + 1 }
    else .ok (answer stats (turn.shredStore.getShred slot shredIndex) header.nonce fromAddr)
  | .highestWindowIndex header slot shredIndex =>
    let stats := { stats with highestWindowIndex := stats.highestWindowIndex + 1 }
    if !validateHeader header myId turn.timestamp then
      .error { stats with dropHeaderInvalid := stats.dropHeaderInvalid + 1 }
    else .ok (answer stats (turn.shredStore.getHighestDataShredFrom slot shredIndex) header.nonce fromAddr)
  | .orphan .. => .ok ({ stats with orphan := stats.orphan + 1, dropUnsupported := stats.dropUnsupported + 1 }, [])
  | .ancestorHashes .. =>
    .ok ({ stats with ancestorHashes := stats.ancestorHashes + 1, dropUnsupported := stats.dropUnsupported + 1 }, [])
  | .pong _ => .ok ({ stats with pong := stats.pong + 1 }, [])
  | _ => .ok ({ stats with legacy := stats.legacy + 1, dropUnsupported := stats.dropUnsupported + 1 }, [])

/-- The rate limit of an address, asked for one more request. -/
def rateLimit (fromAddr : SocketAddr) (now : Instant) : PeerRateLimit × Bool :=
  ((task.rateLimits[fromAddr]?).getD (.new now)).checkAndIncrement now

/-- A turn for a packet that is no ping. -/
def serve (packet : PacketView) (fromAddr : SocketAddr) (turn : Turn) : ServeRepair Keypair × List Event :=
  let (limit, admitted) := task.rateLimit fromAddr turn.now
  let task := { task with rateLimits := task.rateLimits.insert fromAddr limit }
  if !admitted then
    { task with stats := { task.stats with rateLimited := task.stats.rateLimited + 1 } }.reportStatsIfNeeded turn.done
  else
    match deserializeRequest packet with
    | none =>
      { task with
        stats := { task.stats with dropDeserialize := task.stats.dropDeserialize + 1 } }.reportStatsIfNeeded turn.done
    | some request =>
      match handleRequest task.stats task.myId turn fromAddr request with
      | .error stats => { task with stats := stats }.reportStatsIfNeeded turn.done
      | .ok (stats, sent) =>
        let (task, reported) := { task with stats := stats }.reportStatsIfNeeded turn.done
        (task.cleanUp turn.done, sent ++ reported)

def step (turn : Turn) : ServeRepair Keypair × List Event :=
  match turn.received with
  | none => (task, [])
  | some (packet, fromAddr) =>
    match handlePing task.keypair packet fromAddr with
    | some pong => (task, [pong])
    | none => task.serve packet fromAddr turn

end ServeRepair

end Lightbringer.RepairDelivery
