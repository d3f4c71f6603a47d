import Lightbringer.Overlay.Turbine
import Lightbringer.Lib.Lru

/-!
# Passing shreds on

The part of `OverlayCore` (`overlay/service.rs`) that takes a shred from the local source or from the mesh, hands
it to the packet filter and picks the peers it goes to.
-/

namespace Lightbringer.Overlay

inductive OverlayMode where
  | sink
  | source
  deriving DecidableEq

def seenShredsCapacity : Nat := 32768

/-- What the core reads off the transport, the gossip table and the quarantine to pick its peers. -/
structure PeerView where
  connectedPeers : List Pubkey
  connectionAddr : Pubkey → Option SocketAddr
  quarantined : SocketAddr → Bool
  /-- Live adverts with a direct address, and the first such address. -/
  directPeers : List (Pubkey × SocketAddr)
  directAddrs : Pubkey → List SocketAddr
  hasV6 : Bool

namespace PeerView

variable (view : PeerView)

def usablePeers (localPubkey : Pubkey) (exclude : Option Pubkey) : List Pubkey :=
  let connected := view.connectedPeers.filter (fun peer => !(view.connectionAddr peer).any view.quarantined)
  let direct := (view.directPeers.filter (fun peer => !view.quarantined peer.2)).map (·.1)
  (Shuffle.canonical BitVec.toNat (connected ++ direct)).filter
    (fun peer => peer ≠ localPubkey ∧ some peer ≠ exclude)

/-- The ways `send_to_peer` takes. -/
inductive Route where
  | connection (addr : SocketAddr)
  | dial (addr : SocketAddr)
  | punch
  | drop
  deriving DecidableEq

/-- An established connection first, then an advertised address, v6 before v4; a punch is the last resort. -/
def route (peer : Pubkey) : Route :=
  match view.connectionAddr peer with
  | some addr => if view.quarantined addr then .drop else .connection addr
  | none =>
    let usable := (view.directAddrs peer).filter (fun addr => !view.quarantined addr)
    match (usable.find? (fun addr => addr.isIpv6 && view.hasV6)).or (usable.find? (fun addr => !addr.isIpv6)) with
    | some addr => .dial addr
    | none => .punch

end PeerView

structure ShredRelay where
  mode : OverlayMode
  tree : TurbineTree
  seenShreds : Lru UInt64 Unit

/-- What a relay does with a shred: the packet it hands to the filter and the peers it sends it to. -/
structure Relayed where
  relay : ShredRelay
  shredForFilter : Option PacketInfo
  targets : List Pubkey

/-- `packet_view`. -/
def packetView (payload : List UInt8) : Option PacketView :=
  if fits : payload.length ≤ packetDataSize then some ⟨payload, fits⟩ else none

namespace ShredRelay

variable [TurbineHash] (relay : ShredRelay)

def shredDedupKey (payload : List UInt8) : UInt64 := TurbineHash.hashPayload payload

def onSourcePacket (view : PeerView) (packet : PacketInfo) : Relayed :=
  if relay.mode ≠ .source then { relay, shredForFilter := none, targets := [] }
  else
    -- Marked, not checked: repeated injections still flood.
    let relay := { relay with seenShreds := relay.seenShreds.push (shredDedupKey packet.bytes) () }
    let peers := view.usablePeers relay.tree.localPubkey none
    { relay, shredForFilter := none, targets := relay.tree.originPeers packet.bytes peers }

/-- `handle_frame` on a shred frame. `sender` is the verified identity behind the frame's source address. -/
def handleShred (view : PeerView) (sender : Option Pubkey) (payload : List UInt8) : Relayed :=
  let key := shredDedupKey payload
  match relay.seenShreds.get key with
  | (touched, some ()) => { relay := { relay with seenShreds := touched }, shredForFilter := none, targets := [] }
  | (touched, none) =>
    let relay := { relay with seenShreds := touched.push key () }
    let peers := view.usablePeers relay.tree.localPubkey sender
    { relay, shredForFilter := packetView payload, targets := relay.tree.retransmitPeers payload peers }

/-- The relay once it has seen a payload. -/
def mark (payload : List UInt8) : ShredRelay :=
  { relay with seenShreds := relay.seenShreds.push (shredDedupKey payload) () }

theorem onSourcePacket_source {relay : ShredRelay} (view : PeerView) (packet : PacketInfo)
    (source : relay.mode = .source) :
    relay.onSourcePacket view packet =
      { relay := relay.mark packet.bytes
        shredForFilter := none
        targets := relay.tree.originPeers packet.bytes (view.usablePeers relay.tree.localPubkey none) } := by
  simp [onSourcePacket, source, mark]

theorem handleShred_seen {relay : ShredRelay} (view : PeerView) (sender : Option Pubkey) {payload : List UInt8}
    (seen : relay.seenShreds.peek (shredDedupKey payload) = some ()) :
    relay.handleShred view sender payload =
      { relay := relay.mark payload
        shredForFilter := none
        targets := [] } := by
  simp [handleShred, Lru.get, seen, mark]

theorem handleShred_unseen {relay : ShredRelay} (view : PeerView) (sender : Option Pubkey) {payload : List UInt8}
    (unseen : relay.seenShreds.peek (shredDedupKey payload) = none) :
    relay.handleShred view sender payload =
      { relay := relay.mark payload
        shredForFilter := packetView payload
        targets := relay.tree.retransmitPeers payload (view.usablePeers relay.tree.localPubkey sender) } := by
  simp [handleShred, Lru.get, unseen, mark]

end ShredRelay

end Lightbringer.Overlay
