import Lightbringer.Types

/-!
# Messages of the repair pipeline

The requests the metadata task sends to the repair manager (`repair::request::RepairReq`), and what the manager
keeps and sends for each of them. A request on its way to the socket is kept as what its bytes ask for. Send times
only feed the scoring of peers and are left out.
-/

namespace Lightbringer.Repair

inductive RepairReq where
  | missingBoundedShreds (slot : UInt64) (shreds : List UInt32)
  | missingUnboundedShreds (slot : UInt64) (shreds : List UInt32) (maxInclusiveShred : UInt32)
  | cancelRepair (slot : UInt64)
  deriving DecidableEq

/-- A request for missing shreds of the slot. -/
def RepairReq.asksFor (slot : UInt64) : RepairReq → Bool
  | .missingBoundedShreds asked _ => asked = slot
  | .missingUnboundedShreds asked _ _ => asked = slot
  | .cancelRepair _ => false

abbrev Nonce := UInt32

/-- `overlay::repair::RepairRoute`: what a response shows of where it comes from. -/
inductive RepairRoute where
  | addr (socket : SocketAddr)
  | peer (pubkey : Pubkey)
  deriving DecidableEq

inductive RepairTarget where
  | udp (socket : SocketAddr) (pubkey : Pubkey)
  | overlay (pubkey : Pubkey)
  deriving DecidableEq

def RepairTarget.route : RepairTarget → RepairRoute
  | .udp socket _ => .addr socket
  | .overlay pubkey => .peer pubkey

inductive OutstandingRequestKind where
  | windowIndex
  | highestWindowIndex
  deriving DecidableEq

structure OutstandingRequest where
  kind : OutstandingRequestKind
  nonce : Nonce
  slot : UInt64
  shred : UInt32
  target : RepairTarget
  deriving DecidableEq

inductive OutstandingRequestMsg where
  | new (request : OutstandingRequest)
  | timeout (request : OutstandingRequest)
  deriving DecidableEq

/-- Where the pipeline lets go of a slot without having recorded anything. -/
inductive Exit where
  /-- A bounded request that lists no shreds. -/
  | emptyRequest
  | noPeers
  /-- An answer to a `HighestWindowIndex` request that is no data shred. -/
  | invalidResponse
  /-- An answer that the packet filter drops. -/
  | filtered
  /-- An answer that the metadata task ignores. -/
  | notAccepted
  deriving DecidableEq

/-- One request of a `RepairSocketRequestBatch`. -/
structure SocketRequest where
  target : RepairTarget
  nonce : Nonce
  kind : OutstandingRequestKind
  slot : UInt64
  shredIndex : UInt32
  deriving DecidableEq

/-- What a step of the pipeline shows to the outside, and the exits it takes. -/
inductive Event where
  | sent (request : SocketRequest)
  /-- An answer was matched and goes to the packet filter. -/
  | forwarded (packet : PacketInfo)
  /-- The metadata task accepted a shred of the slot. -/
  | accepted (slot : UInt64)
  | gaveUp (slot : UInt64) (exit : Exit)
  deriving DecidableEq

end Lightbringer.Repair
