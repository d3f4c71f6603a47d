import Lightbringer.Overlay.PunchMessages
import Lightbringer.Overlay.Quarantine
import Lightbringer.Overlay.Core

/-!
# Hole punching in the overlay core

The P5 exchange of `overlay/service.rs`: a request and its response, relayed by a peer both ends are connected to, then
raw probes, which the relay may assist, until one of them authenticates a path. One core plays initiator, target and
relay at once. It is generic in its transport. Every event that `pump` polls is a step of its own.
-/

namespace Lightbringer.Overlay
open Std Machine Bincode

/-! ### Frames -/

inductive PunchAssistKind where
  | samePortObservation
  | sequentialBracket
  deriving DecidableEq

/-- The part of `OverlayFrame` about hole punching. -/
inductive PunchFrame where
  | connectRequest (request : ConnectRequest)
  | connectResponse (response : ConnectResponse)
  | punchAssist (nonce : UInt64) (origin target : Pubkey) (port : UInt16) (kind : PunchAssistKind)
  | punchObservation (nonce : UInt64) (origin target : Pubkey) (observed : SocketAddr)
  | punchBracket (nonce : UInt64) (origin target : Pubkey) (ip : IpAddr) (start stop : UInt16)
  | punchBirthday (nonce : UInt64) (origin target : Pubkey)
  deriving DecidableEq

def overlayProtocolVersion : UInt8 := 1

def PunchAssistKind.bytes : PunchAssistKind → List UInt8
  | .samePortObservation => fixed 4 0
  | .sequentialBracket => fixed 4 1

/-- What the other frames start with. -/
def routeBytes (nonce : UInt64) (origin target : Pubkey) : List UInt8 :=
  fixed 8 nonce.toNat ++ pubkeyBytes origin ++ pubkeyBytes target

def PunchFrame.body : PunchFrame → List UInt8
  | .connectRequest request => 5 :: signalingBytes request.toSignaling ++ request.signature
  | .connectResponse response => 6 :: signalingBytes response.toSignaling ++ response.signature
  | .punchAssist nonce origin target port kind =>
    7 :: routeBytes nonce origin target ++ fixed 2 port.toNat ++ kind.bytes
  | .punchObservation nonce origin target observed => 8 :: routeBytes nonce origin target ++ socketAddrBytes observed
  | .punchBracket nonce origin target ip start stop =>
    9 :: routeBytes nonce origin target ++ ipAddrBytes ip ++ fixed 2 start.toNat ++ fixed 2 stop.toNat
  | .punchBirthday nonce origin target => 10 :: routeBytes nonce origin target

def PunchFrame.encode (frame : PunchFrame) : List UInt8 := overlayProtocolVersion :: frame.body

/-- A raw probe with the socket it came in on. -/
structure PunchProbeEvent where
  socket : SocketId
  source : SocketAddr
  probe : PunchProbe
  deriving DecidableEq

/-! ### The transport and the platform -/

/-- The part of `OverlayTransport` that hole punching uses. `Dial` is what starting a connection yields, `Call` what
else happens to the transport. -/
class PunchTransport (T : Type) where
  Dial : Type
  Call : Type
  call : T → Call → T
  peerIdentity : T → SocketAddr → Option Pubkey
  connectionAddr : T → Pubkey → Option SocketAddr
  connectionSocket : T → Pubkey → Option SocketId
  queueDatagramToPeer : T → Pubkey → List UInt8 → T × Bool
  queueDatagramExpecting : T → SocketAddr → Pubkey → List UInt8 → Dial → T × Bool
  dialExpecting : T → SocketAddr → Pubkey → Dial → T × Bool
  dialExpectingFrom : T → SocketId → SocketAddr → Pubkey → Dial → T × Bool
  sendPunchProbe : T → SocketAddr → PunchProbe → T × Bool
  sendPunchProbeFrom : T → SocketId → SocketAddr → PunchProbe → T × Bool
  registerPunchSocket : T → SocketId → T
  unregisterPunchSocket : T → SocketId → T

/-- The driver's sockets, which it numbers as it binds them. Whether a bind succeeds and what is drawn at random comes
with the input of a step. -/
structure Platform where
  sockets : Nat
  granted : List Bool
  draws : List UInt32

namespace Platform

variable (platform : Platform)

def bind : Platform × Option SocketId :=
  match platform.granted with
  | true :: rest =>
    if platform.sockets < 2 ^ 32 then
      ({ platform with sockets := platform.sockets + 1, granted := rest }, some (.ofNat platform.sockets))
    else ({ platform with granted := rest }, none)
  | _ => ({ platform with granted := platform.granted.tail }, none)

def draw : Platform × UInt32 := ({ platform with draws := platform.draws.tail }, platform.draws.headD 0)

end Platform

/-! ### State -/

def maxPunchSessions : Nat := 128

def maxPunchForwards : Nat := 512

def maxPunchHelpers : Nat := 64

def maxBracketWidth : Nat := 32

def birthdaySocketCap : Nat := 256

def birthdaySprayCap : Nat := 1024

def birthdayDuration : Nat := fromSecs 20

def birthdayPortStart : UInt16 := 40000

def birthdayPortWidth : UInt32 := 20000

def maxPunchOutcomes : Nat := 4096

def punchOutcomeTtl : Nat := fromSecs (10 * 60)

def punchTimeout : Nat := fromSecs 5

def punchProbeInterval : Nat := fromMillis 100

def maxPunchProbeRounds : Nat := 2

def maxPunchSignalsPerSecond : Nat := 4

structure PunchSession where
  peer : Pubkey
  nonce : UInt64
  via : Pubkey
  candidates : Candidates
  freshest : Option SocketAddr
  remoteProfile : NatProfile
  localProfile : NatProfile
  awaitingResponse : Bool
  dialStarted : Bool
  payload : Option (List UInt8)
  birthdaySockets : List SocketId
  birthdayStarted : Bool
  birthdaySpraySent : Bool
  deadline : Instant
  nextProbe : Instant
  probeRounds : Nat
  assistFollowupGranted : Bool
  sequentialPrediction : Option SocketAddr
  bracketCandidates : ArrayVec SocketAddr maxBracketWidth
  deriving DecidableEq

/-- A request that this node forwarded is known by its origin and nonce. -/
structure ForwardKey where
  origin : Pubkey
  nonce : UInt64
  deriving DecidableEq

structure PunchForward where
  target : Pubkey
  originProfile : NatProfile
  originCandidates : Candidates
  deadline : Instant

structure PunchHelper where
  origin : Pubkey
  target : Pubkey
  nonce : UInt64
  socket : SocketId
  kind : PunchAssistKind
  deadline : Instant

structure PunchOutcomeKey where
  peer : Pubkey
  localGeneration : Option IpAddr
  remoteGeneration : Option IpAddr
  deriving DecidableEq

instance : Ord ForwardKey := ⟨compareLex (compareOn ForwardKey.origin) (compareOn ForwardKey.nonce)⟩

instance : TransOrd ForwardKey :=
  inferInstanceAs (TransCmp (compareLex (compareOn ForwardKey.origin) (compareOn ForwardKey.nonce)))

instance : LawfulEqOrd ForwardKey where
  eq_of_compare {a b} same := by
    obtain ⟨origins, nonces⟩ := compareLex_eq_eq.mp same
    obtain ⟨origin, nonce⟩ := a
    have sameOrigin : origin = b.origin := LawfulEqOrd.compare_eq_iff_eq.mp origins
    have sameNonce : nonce = b.nonce := LawfulEqOrd.compare_eq_iff_eq.mp nonces
    rw [sameOrigin, sameNonce]

def PunchFrame.nonce : PunchFrame → UInt64
  | .connectRequest request => request.nonce
  | .connectResponse response => response.nonce
  | .punchAssist nonce .. | .punchObservation nonce .. | .punchBracket nonce .. | .punchBirthday nonce .. => nonce

inductive PunchAction where
  | created (nonce : UInt64) (now : Instant)
  /-- A session took a `PunchAssist`. -/
  | assisted (nonce : UInt64)
  /-- `advance_punches` sent a round of probes. -/
  | volley (nonce : UInt64)
  /-- A raw probe went to the transport, from the socket it names if it names one. -/
  | probed (socket : Option SocketId) (dest : SocketAddr) (probe : PunchProbe)
  /-- A request was queued to its target, in the rate windows of its origin and its target that began then. -/
  | forwarded (request : ConnectRequest) (originWindow targetWindow : Instant)
  /-- A response met its forward. Whether it was queued to the initiator is the flag. -/
  | answered (response : ConnectResponse) (queued : Bool)
  | helperBound (forward : ForwardKey) (socket : SocketId)
  | birthdayBound (nonce : UInt64) (socket : SocketId)
  | closed (socket : SocketId)
  deriving DecidableEq

/-! ### Sessions -/

namespace PunchSession

/-- The session of `begin_punch`. -/
def initiated (peer : Pubkey) (nonce : UInt64) (via : Pubkey) (localProfile : NatProfile)
    (payload : Option (List UInt8)) (now : Instant) : PunchSession where
  peer := peer
  nonce := nonce
  via := via
  candidates := .empty
  freshest := none
  remoteProfile := .unknown
  localProfile := localProfile
  awaitingResponse := true
  dialStarted := false
  payload := payload
  birthdaySockets := []
  birthdayStarted := false
  birthdaySpraySent := false
  deadline := now + punchTimeout
  nextProbe := now + punchProbeInterval
  probeRounds := 0
  assistFollowupGranted := false
  sequentialPrediction := none
  bracketCandidates := .empty

/-- The session a request opens at its target. -/
def requested (request : ConnectRequest) (via : Pubkey) (localProfile : NatProfile) (now : Instant) :
    PunchSession where
  peer := request.origin
  nonce := request.nonce
  via := via
  candidates := request.candidates
  freshest := none
  remoteProfile := request.natProfile
  localProfile := localProfile
  awaitingResponse := false
  dialStarted := false
  payload := none
  birthdaySockets := []
  birthdayStarted := false
  birthdaySpraySent := false
  deadline := now + punchTimeout
  nextProbe := now
  probeRounds := 0
  assistFollowupGranted := false
  sequentialPrediction := none
  bracketCandidates := .empty

variable (session : PunchSession)

def addPunchCandidate (candidate : SocketAddr) : PunchSession :=
  { session with candidates := session.candidates.pushNew candidate }

def scheduleAssistedFollowup (now : Instant) : PunchSession :=
  { session with
    assistFollowupGranted := true
    probeRounds := if session.assistFollowupGranted then session.probeRounds else 0
    nextProbe := now }

/-- Where a round of probes goes. -/
def targets : List SocketAddr :=
  match session.sequentialPrediction with
  | some predicted => [predicted]
  | none =>
    session.freshest.toList ++
      session.candidates.items.filter (fun candidate => some candidate ≠ session.freshest) ++
      session.bracketCandidates.items.filter
        (fun candidate => some candidate ≠ session.freshest ∧ candidate ∉ session.candidates.items)

def isRandom (profile : NatProfile) : Bool := profile.allocator = some .random

def isPublic (profile : NatProfile) : Bool := profile.natClass = some .publicHost

/-- Neither end is public, one maps at random, and they have not both agreed to a birthday punch. -/
def hopeless (birthdayPunch : Bool) : Bool :=
  (isRandom session.localProfile || isRandom session.remoteProfile) &&
    !(isPublic session.localProfile || isPublic session.remoteProfile) &&
    !(birthdayPunch && session.localProfile.birthdayPunch && session.remoteProfile.birthdayPunch)

/-- The body of the loop of `advance_punches` over the sessions, with whether it sends a round of probes. -/
def advance (birthdayPunch : Bool) (now : Instant) : PunchSession × Bool :=
  if session.awaitingResponse || now < session.nextProbe then (session, false)
  else if session.hopeless birthdayPunch then ({ session with nextProbe := session.deadline }, false)
  -- Never leave an already-due periodic deadline behind.
  else if maxPunchProbeRounds ≤ session.probeRounds then ({ session with nextProbe := session.deadline }, false)
  else
    ({ session with
        probeRounds := session.probeRounds + 1
        nextProbe := if session.sequentialPrediction.isSome then session.deadline else now + punchProbeInterval },
      true)

/-- The session takes a plan of its relay, which is to be probed first by a sequential mapping of its own. -/
def assist (helper : SocketAddr) (now : Instant) : PunchSession :=
  let session := session.addPunchCandidate helper
  let sequential (profile : NatProfile) : Bool := (profile.allocator.map AllocatorProfile.isSequential).getD false
  let candidates :=
    if sequential session.localProfile && !sequential session.remoteProfile then session.candidates.moveToFront helper
    else session.candidates
  { session with candidates := candidates, probeRounds := 0, nextProbe := now }

def observe (observed : SocketAddr) (now : Instant) : PunchSession :=
  (session.addPunchCandidate observed).scheduleAssistedFollowup now

/-- The mapping a sequential allocator makes next, if the port does not wrap. -/
def predict (ip : IpAddr) (stop : UInt16) : Option SocketAddr :=
  match session.remoteProfile.allocator with
  | some (.sequential stride) => if stop.toNat + stride.toNat < 2 ^ 16 then some ⟨ip, stop + stride⟩ else none
  | _ => none

def bracketed (ip : IpAddr) (start stop : UInt16) : PunchSession :=
  match session.predict ip stop with
  | some predicted => { session with sequentialPrediction := some predicted, bracketCandidates := .empty }
  | none =>
    let ports := List.range' start.toNat (stop.toNat + 1 - start.toNat)
    { session with
      bracketCandidates :=
        ports.foldl (fun candidates port => candidates.pushNew ⟨ip, .ofNat port⟩) session.bracketCandidates }

def bracket (ip : IpAddr) (start stop : UInt16) (now : Instant) : PunchSession :=
  (session.bracketed ip start stop).scheduleAssistedFollowup now

/-- The end of a birthday punch is counted from its last event. -/
def extended (now : Instant) : PunchSession := { session with deadline := now + birthdayDuration }

def answered (response : ConnectResponse) (birthday : Bool) (now : Instant) : PunchSession :=
  { session with
    candidates := response.candidates
    remoteProfile := response.natProfile
    awaitingResponse := false
    nextProbe := now
    deadline := if birthday then now + birthdayDuration else session.deadline }

def opened (sockets : List SocketId) (now : Instant) : PunchSession :=
  { session.extended now with birthdayStarted := true, birthdaySockets := sockets }

def sprayed (now : Instant) : PunchSession := { session.extended now with birthdaySpraySent := true }

/-- A probe of the peer came in. `dials` is whether it is answered by a dial, `takes` whether that takes the payload. -/
def reached (source : SocketAddr) (dials takes : Bool) (now : Instant) : PunchSession :=
  { session with
    freshest := some source
    nextProbe := now
    dialStarted := session.dialStarted || dials
    payload := if takes then none else session.payload }

end PunchSession

/-! ### The core -/

variable [Ed25519]

structure PunchCore (T : Type) where
  transport : T
  platform : Platform
  keypair : Ed25519.Keypair
  birthdayPunch : Bool
  confirming : TreeMap SocketAddr ConfirmDial
  punchSessions : TreeMap UInt64 PunchSession
  punchForwards : TreeMap ForwardKey PunchForward
  punchHelpers : TreeMap SocketId PunchHelper
  punchOutcomes : Lru PunchOutcomeKey Instant
  lastPunchProfiles : Lru Pubkey NatProfile
  punchInitiatorRate : RepairRateLimiter
  punchTargetRate : RepairRateLimiter
  punchRefused : Nat
  punchAttempts : Nat

/-- What the rest of the core answers during a step: the clock, gossip, discovery, random nonces and
`endpoint.connect`. -/
structure PunchEnv (T : Type) [PunchTransport T] where
  now : Instant
  dial : PunchTransport.Dial T
  /-- `gossip.get` at this instant. -/
  advert : Pubkey → Option PeerAdvert
  natClass : Option NatClass
  allocator : Option AllocatorProfile
  generation : Option IpAddr
  candidates : Candidates
  nonces : List UInt64
  granted : List Bool
  draws : List UInt32

namespace PunchCore

variable {T : Type} [PunchTransport T]

def new (transport : T) (keypair : Ed25519.Keypair) (birthdayPunch : Bool) (sockets : Nat) : PunchCore T where
  transport := transport
  platform := ⟨sockets, [], []⟩
  keypair := keypair
  birthdayPunch := birthdayPunch
  confirming := ∅
  punchSessions := ∅
  punchForwards := ∅
  punchHelpers := ∅
  punchOutcomes := Lru.new maxPunchOutcomes
  lastPunchProfiles := Lru.new maxPunchOutcomes
  punchInitiatorRate := RepairRateLimiter.new maxPunchSignalsPerSecond
  punchTargetRate := RepairRateLimiter.new maxPunchSignalsPerSecond
  punchRefused := 0
  punchAttempts := 0

variable (core : PunchCore T) (env : PunchEnv T)

def localPubkey : Pubkey := Ed25519.pubkey core.keypair

def refusePunch : PunchCore T := { core with punchRefused := core.punchRefused + 1 }

def setSession (nonce : UInt64) (session : PunchSession) : PunchCore T :=
  { core with punchSessions := core.punchSessions.insert nonce session }

def localNatProfile : NatProfile := ⟨env.natClass, env.allocator, core.birthdayPunch, env.generation⟩

def queueFrame (pubkey : Pubkey) (frame : PunchFrame) : PunchCore T × Bool :=
  let (transport, queued) := PunchTransport.queueDatagramToPeer core.transport pubkey frame.encode
  ({ core with transport := transport }, queued)

/-- `send_punch_probe`; what fails is only logged. -/
def sendPunchProbe (dest : SocketAddr) (probe : PunchProbe) : PunchCore T × List PunchAction :=
  let (transport, sent) := PunchTransport.sendPunchProbe core.transport dest probe
  ({ core with transport := transport }, if sent then [.probed none dest probe] else [])

def sendPunchProbeFrom (socket : SocketId) (dest : SocketAddr) (probe : PunchProbe) :
    PunchCore T × Bool × List PunchAction :=
  let (transport, sent) := PunchTransport.sendPunchProbeFrom core.transport socket dest probe
  ({ core with transport := transport }, sent, if sent then [.probed (some socket) dest probe] else [])

def closeSocket (socket : SocketId) : PunchCore T × List PunchAction :=
  ({ core with transport := PunchTransport.unregisterPunchSocket core.transport socket }, [.closed socket])

/-! ### Advancing and ending sessions -/

def closeBirthdaySockets (sockets : List SocketId) (keep : Option SocketId) : PunchCore T × List PunchAction :=
  run closeSocket core (sockets.filter (fun socket => some socket ≠ keep))

def cachePunchFailure (session : PunchSession) (now : Instant) : PunchCore T :=
  -- No answer means that signaling failed, which says nothing about the NATs.
  if session.awaitingResponse then core
  else
    { core with
      lastPunchProfiles := core.lastPunchProfiles.push session.peer session.remoteProfile
      punchOutcomes := core.punchOutcomes.push
        ⟨session.peer, session.localProfile.generation, session.remoteProfile.generation⟩ (now + punchOutcomeTtl) }

def expirePunch (now : Instant) (core : PunchCore T) (entry : UInt64 × PunchSession) : PunchCore T × List PunchAction :=
  let core := { core with punchSessions := core.punchSessions.erase entry.1 }
  (core.cachePunchFailure entry.2 now).closeBirthdaySockets entry.2.birthdaySockets none

def sendProbe (core : PunchCore T) (send : SocketAddr × PunchProbe) : PunchCore T × List PunchAction :=
  core.sendPunchProbe send.1 send.2

/-- The sessions that send a round of probes now. -/
def volleying (now : Instant) : List (UInt64 × PunchSession) :=
  core.punchSessions.toList.filter (fun entry => (entry.2.advance core.birthdayPunch now).2)

def sendVolleys (now : Instant) : PunchCore T × List PunchAction :=
  let due := core.volleying now
  let sends := due.flatMap (fun entry =>
    entry.2.targets.map (fun dest => (dest, PunchProbe.sign entry.2.nonce core.keypair)))
  let sessions := core.punchSessions.map (fun _ session => (session.advance core.birthdayPunch now).1)
  let (core, probed) := run sendProbe { core with punchSessions := sessions } sends
  (core, due.map (fun entry => .volley entry.1) ++ probed)

def advancePunches (now : Instant) : PunchCore T × List PunchAction :=
  let expired := core.punchSessions.toList.filter (fun entry => entry.2.deadline ≤ now)
  let (core, closed) := run (expirePunch now) core expired
  let (core, probed) := core.sendVolleys now
  (core, closed ++ probed)

def completeSession (peer : Pubkey) (core : PunchCore T) (entry : UInt64 × PunchSession) :
    PunchCore T × List PunchAction :=
  let core := { core with punchSessions := core.punchSessions.erase entry.1 }
  let core := match entry.2.payload with
    | some payload => { core with transport := (PunchTransport.queueDatagramToPeer core.transport peer payload).1 }
    | none => core
  core.closeBirthdaySockets entry.2.birthdaySockets (PunchTransport.connectionSocket core.transport peer)

def completePunch (peer : Pubkey) : PunchCore T × List PunchAction :=
  run (completeSession peer) core (core.punchSessions.toList.filter (fun entry => entry.2.peer = peer))

def expirePunchForwards (now : Instant) : PunchCore T :=
  { core with punchForwards := core.punchForwards.filter (fun _ forward => now < forward.deadline) }

def expireHelper (core : PunchCore T) (entry : SocketId × PunchHelper) : PunchCore T × List PunchAction :=
  { core with punchHelpers := core.punchHelpers.erase entry.1 }.closeSocket entry.1

def expirePunchHelpers (now : Instant) : PunchCore T × List PunchAction :=
  run expireHelper core (core.punchHelpers.toList.filter (fun entry => entry.2.deadline ≤ now))

/-! ### Initiator -/

/-- The last attempt at this peer, between the networks both are on now, failed not long ago. -/
def failedBefore (peer : Pubkey) : Bool :=
  match core.lastPunchProfiles.peek peer with
  | none => false
  | some remote =>
    match core.punchOutcomes.peek ⟨peer, (core.localNatProfile env).generation, remote.generation⟩ with
    | some expiry => env.now < expiry
    | none => false

/-- The first relay the peer advertises that this node is connected to. -/
def punchVia (peer : Pubkey) : Option Pubkey :=
  match (env.advert peer).map PeerAdvert.reachability with
  | some (.coordinated _ via) =>
    via.find? (fun candidate => (PunchTransport.connectionAddr core.transport candidate).isSome)
  | _ => none

/-- `begin_punch` once there is a relay and an unused nonce. -/
def initiatePunch (peer via : Pubkey) (nonce : UInt64) (payload : Option (List UInt8)) :
    PunchCore T × Bool × List PunchAction :=
  let (core, queued) := core.queueFrame via
    (.connectRequest (.sign nonce peer env.candidates (core.localNatProfile env) core.keypair))
  if queued then
    let session := PunchSession.initiated peer nonce via (core.localNatProfile env) payload env.now
    ({ core.setSession nonce session with punchAttempts := core.punchAttempts + 1 }, true, [.created nonce env.now])
  else (core, false, [])

/-- Nonces are drawn until one is unused. -/
def beginPunch (peer : Pubkey) (payload : Option (List UInt8)) : PunchCore T × Bool × List PunchAction :=
  if (PunchTransport.connectionAddr core.transport peer).isSome then (core, true, [])
  else
    match core.punchSessions.toList.find? (fun entry => entry.2.peer = peer) with
    | some (nonce, session) => (core.setSession nonce { session with payload := session.payload.or payload }, true, [])
    | none =>
      if maxPunchSessions ≤ core.punchSessions.size || core.failedBefore env peer then (core, false, [])
      else
        match core.punchVia env peer, env.nonces.find? (fun nonce => nonce ∉ core.punchSessions) with
        | some via, some nonce => core.initiatePunch env peer via nonce payload
        | _, _ => (core, false, [])

/-! ### Birthday sockets -/

/-- One round of the loop of `start_birthday`; a bind that fails ends the loop. -/
def bindBirthday (nonce : UInt64) (target : SocketAddr) : PunchCore T × Option (List SocketId) × List PunchAction :=
  match core.platform.bind with
  | (platform, none) => ({ core with platform := platform }, none, [])
  | (platform, some socket) =>
    let core := { core with
      platform := platform, transport := PunchTransport.registerPunchSocket core.transport socket }
    let (core, sent, probed) := core.sendPunchProbeFrom socket target (PunchProbe.sign nonce core.keypair)
    if sent then (core, some [socket], .birthdayBound nonce socket :: probed)
    else
      let (core, closed) := core.closeSocket socket
      (core, some [], .birthdayBound nonce socket :: closed)

def bindBirthdays (nonce : UInt64) (target : SocketAddr) (core : PunchCore T) :
    Nat → PunchCore T × List SocketId × List PunchAction
  | 0 => (core, [], [])
  | rounds + 1 =>
    match core.bindBirthday nonce target with
    | (core, none, actions) => (core, [], actions)
    | (core, some sockets, actions) =>
      let (core, more, later) := bindBirthdays nonce target core rounds
      (core, sockets ++ more, actions ++ later)

/-- `start_birthday` once the session and its first candidate are known. -/
def openBirthday (nonce : UInt64) (session : PunchSession) (target : SocketAddr) : PunchCore T × List PunchAction :=
  match bindBirthdays nonce target core birthdaySocketCap with
  | (core, [], actions) => (core, actions)
  | (core, sockets, actions) =>
    let core := core.setSession nonce (session.opened sockets env.now)
    ((core.queueFrame session.via (.punchBirthday nonce core.localPubkey session.peer)).1, actions)

def startBirthday (nonce : UInt64) : PunchCore T × List PunchAction :=
  match core.punchSessions[nonce]? with
  | none => (core, [])
  | some session =>
    if session.birthdayStarted || !core.birthdayPunch || !session.localProfile.birthdayPunch ||
        !PunchSession.isRandom session.localProfile then (core, [])
    else
      match session.candidates.items.head? with
      | none => (core, [])
      | some target => core.openBirthday env nonce session target

/-! ### Requests -/

/-- Both ends agreed to a birthday punch and this one maps at random. -/
def birthdayRequest (request : ConnectRequest) : Bool :=
  core.birthdayPunch && (core.localNatProfile env).birthdayPunch && request.natProfile.birthdayPunch &&
    PunchSession.isRandom (core.localNatProfile env)

/-- The session of an admitted request, which may have been there before. -/
def openSession (via : Pubkey) (request : ConnectRequest) : PunchCore T × List PunchAction :=
  let fresh := PunchSession.requested request via (core.localNatProfile env) env.now
  let (sessions, created) := match core.punchSessions[request.nonce]? with
    | some _ => (core.punchSessions, [])
    | none => (core.punchSessions.insert request.nonce fresh, [PunchAction.created request.nonce env.now])
  let sessions :=
    if core.birthdayRequest env request then
      sessions.modify request.nonce (fun session => session.extended env.now)
    else sessions
  ({ core with
      punchSessions := sessions
      lastPunchProfiles := core.lastPunchProfiles.push request.origin request.natProfile }, created)

/-- The target's part of `handle_connect_request`, past its checks. -/
def answerRequest (via : Pubkey) (request : ConnectRequest) : PunchCore T × List PunchAction :=
  let birthday := core.birthdayRequest env request
  let (core, created) := core.openSession env via request
  let response :=
    ConnectResponse.sign request.nonce request.origin env.candidates (core.localNatProfile env) core.keypair
  let (core, _) := core.queueFrame via (.connectResponse response)
  let (core, advanced) := core.advancePunches env.now
  let (core, bound) := if birthday then core.startBirthday env request.nonce else (core, [])
  (core, created ++ advanced ++ bound)

/-- When the rate window that `peer` is in began. -/
def windowStart (limiter : RepairRateLimiter) (peer : Pubkey) : Instant :=
  ((limiter.peers.peek peer).map RateWindow.windowStart).getD 0

/-- The relay's part of `handle_connect_request`, past its checks of the route and the rate. -/
def forwardRequest (request : ConnectRequest) : PunchCore T × List PunchAction :=
  let key : ForwardKey := ⟨request.origin, request.nonce⟩
  if key ∈ core.punchForwards then (core, [])
  else
    let (core, queued) := core.queueFrame request.target (.connectRequest request)
    if queued then
      let forward : PunchForward :=
        ⟨request.target, request.natProfile, request.candidates, env.now + punchTimeout⟩
      ({ core with punchForwards := core.punchForwards.insert key forward },
        [.forwarded request (windowStart core.punchInitiatorRate request.origin)
          (windowStart core.punchTargetRate request.target)])
    else (core, [])

/-- The relay's limits; the target's is not asked when the initiator's is exceeded. -/
def admitForward (request : ConnectRequest) : PunchCore T × Bool :=
  if maxPunchForwards ≤ core.punchForwards.size then (core, false)
  else
    let (initiatorRate, admitted) := core.punchInitiatorRate.checkAndIncrement request.origin env.now
    let core := { core with punchInitiatorRate := initiatorRate }
    if !admitted then (core, false)
    else
      let (targetRate, admitted) := core.punchTargetRate.checkAndIncrement request.target env.now
      ({ core with punchTargetRate := targetRate }, admitted)

def handleConnectRequest (source : SocketAddr) (request : ConnectRequest) : PunchCore T × List PunchAction :=
  let sender := PunchTransport.peerIdentity core.transport source
  if !request.verify || request.origin = core.localPubkey then (core.refusePunch, [])
  else if request.target = core.localPubkey then
    match sender with
    | none => (core.refusePunch, [])
    | some via =>
      if (env.advert request.origin).isNone then (core.refusePunch, [])
      else if maxPunchSessions ≤ core.punchSessions.size && request.nonce ∉ core.punchSessions then
        (core.refusePunch, [])
      else core.answerRequest env via request
  else if sender ≠ some request.origin || (PunchTransport.connectionAddr core.transport request.target).isNone ||
      (env.advert request.target).isNone then (core.refusePunch, [])
  else
    let (core, admitted) := core.admitForward env request
    if admitted then core.forwardRequest env request else (core.refusePunch, [])

/-! ### Responses and assistance -/

/-- The helper ports of rung 2. -/
def helperPort (draw : UInt32) : UInt16 := 49152 + (draw % 16384).toUInt16

/-- What a relay offers an observer, with the port to bind for it. Privileged ports are not bound. -/
def planAssist (profile : NatProfile) (exact : SocketAddr) : PunchCore T × Option (PunchAssistKind × UInt16) :=
  let sequential := (profile.allocator.map AllocatorProfile.isSequential).getD false
  let bracket : PunchCore T × Option (PunchAssistKind × UInt16) :=
    let (platform, draw) := core.platform.draw
    ({ core with platform := platform }, some (.sequentialBracket, helperPort draw))
  if profile.natClass = some .portDependent then
    if minUnprivilegedPort ≤ exact.port then (core, some (.samePortObservation, exact.port))
    else if sequential then bracket
    else (core, none)
  else if sequential then bracket
  else (core, none)

/-- Binds the planned port. A same-port plan that cannot be bound falls back to rung 2, once. -/
def bindAssist (profile : NatProfile) (plan : PunchAssistKind × UInt16) :
    PunchCore T × Option (SocketId × PunchAssistKind × UInt16) :=
  match core.platform.bind with
  | (platform, some socket) => ({ core with platform := platform }, some (socket, plan))
  | (platform, none) =>
    if plan.1 = .samePortObservation && (profile.allocator.map AllocatorProfile.isSequential).getD false then
      let (platform, draw) := platform.draw
      match platform.bind with
      | (platform, some socket) =>
        ({ core with platform := platform }, some (socket, .sequentialBracket, helperPort draw))
      | (platform, none) => ({ core with platform := platform }, none)
    else ({ core with platform := platform }, none)

/-- `start_assist`, with the socket it bound. -/
def startAssist (observer recipient : Pubkey) (nonce : UInt64) (profile : NatProfile) (exact : Option SocketAddr) :
    PunchCore T × Option SocketId :=
  if maxPunchHelpers ≤ core.punchHelpers.size then (core, none)
  else
    match exact with
    | none => (core, none)
    | some exact =>
      match core.planAssist profile exact with
      | (core, none) => (core, none)
      | (core, some plan) =>
        match core.bindAssist profile plan with
        | (core, none) => (core, none)
        | (core, some (socket, kind, port)) =>
          let helper : PunchHelper := ⟨observer, recipient, nonce, socket, kind, env.now + punchTimeout⟩
          let core := { core with
            transport := PunchTransport.registerPunchSocket core.transport socket
            punchHelpers := core.punchHelpers.insert socket helper }
          ((core.queueFrame observer (.punchAssist nonce observer recipient port kind)).1, some socket)

/-- First the initiator is observed, then the target. -/
def maybeStartAssist (key : ForwardKey) (forward : PunchForward) (response : ConnectResponse) :
    PunchCore T × List SocketId :=
  let (core, first) := core.startAssist env key.origin response.origin key.nonce forward.originProfile
    response.candidates.items.head?
  let (core, second) := core.startAssist env response.origin key.origin key.nonce response.natProfile
    forward.originCandidates.items.head?
  (core, first.toList ++ second.toList)

/-- The relay's part of `handle_connect_response`. A response uses its forward up, also when it comes from another
peer than the request went to. -/
def relayResponse (response : ConnectResponse) : PunchCore T × List PunchAction :=
  let key : ForwardKey := ⟨response.target, response.nonce⟩
  match core.punchForwards[key]? with
  | none => (core.refusePunch, [])
  | some forward =>
    let core := { core with punchForwards := core.punchForwards.erase key }
    if forward.target ≠ response.origin then (core.refusePunch, [])
    else
      let (core, queued) := core.queueFrame key.origin (.connectResponse response)
      let core := if queued then core else core.refusePunch
      let (core, helpers) := core.maybeStartAssist env key forward response
      (core, .answered response queued :: helpers.map (PunchAction.helperBound key))

/-- This node opted in to a birthday punch and maps at random, by what it signed for the session. -/
def birthdayResponse (session : PunchSession) : Bool :=
  core.birthdayPunch && session.localProfile.birthdayPunch && PunchSession.isRandom session.localProfile

/-- The initiator's part of `handle_connect_response`, past its checks. -/
def acceptResponse (session : PunchSession) (response : ConnectResponse) : PunchCore T × List PunchAction :=
  let birthday := core.birthdayResponse session
  let core := core.setSession response.nonce (session.answered response birthday env.now)
  let core := { core with lastPunchProfiles := core.lastPunchProfiles.push response.origin response.natProfile }
  let (core, advanced) := core.advancePunches env.now
  let (core, bound) := if birthday then core.startBirthday env session.nonce else (core, [])
  (core, advanced ++ bound)

def handleConnectResponse (source : SocketAddr) (response : ConnectResponse) : PunchCore T × List PunchAction :=
  let sender := PunchTransport.peerIdentity core.transport source
  if !response.verify then (core.refusePunch, [])
  else if response.target = core.localPubkey then
    match core.punchSessions[response.nonce]? with
    | none => (core.refusePunch, [])
    | some session =>
      if !session.awaitingResponse || session.peer ≠ response.origin || sender ≠ some session.via ||
          (env.advert response.origin).isNone then (core.refusePunch, [])
      else core.acceptResponse env session response
  else if sender ≠ some response.origin then (core.refusePunch, [])
  else core.relayResponse env response

/-! ### Frames of the relay -/

/-- The session takes a plan or result of its relay, and the probes that are due go out. -/
def updateSession (nonce : UInt64) (session : PunchSession) : PunchCore T × List PunchAction :=
  (core.setSession nonce session).advancePunches env.now

def handlePunchAssist (source : SocketAddr) (nonce : UInt64) (origin target : Pubkey) (port : UInt16) :
    PunchCore T × List PunchAction :=
  match PunchTransport.peerIdentity core.transport source, core.punchSessions[nonce]? with
  | some via, some session =>
    if via ≠ session.via || port < minUnprivilegedPort || origin ≠ core.localPubkey || target ≠ session.peer then
      (core.refusePunch, [])
    else
      match PunchTransport.connectionAddr core.transport via with
      | none => (core.refusePunch, [])
      | some addr =>
        let (core, actions) := core.updateSession env nonce (session.assist ⟨addr.ip, port⟩ env.now)
        (core, .assisted nonce :: actions)
  | _, _ => (core.refusePunch, [])

def handlePunchObservation (source : SocketAddr) (nonce : UInt64) (origin target : Pubkey) (observed : SocketAddr) :
    PunchCore T × List PunchAction :=
  match PunchTransport.peerIdentity core.transport source, core.punchSessions[nonce]? with
  | some via, some session =>
    if target ≠ core.localPubkey || session.peer ≠ origin || session.via ≠ via then (core.refusePunch, [])
    else core.updateSession env nonce (session.observe observed env.now)
  | _, _ => (core.refusePunch, [])

def handlePunchBracket (source : SocketAddr) (nonce : UInt64) (origin target : Pubkey) (ip : IpAddr)
    (start stop : UInt16) : PunchCore T × List PunchAction :=
  match PunchTransport.peerIdentity core.transport source, core.punchSessions[nonce]? with
  | some via, some session =>
    if maxBracketWidth < stop.toNat - start.toNat + 1 then (core.refusePunch, [])
    else if target ≠ core.localPubkey || session.peer ≠ origin || session.via ≠ via then (core.refusePunch, [])
    else core.updateSession env nonce (session.bracket ip start stop env.now)
  | _, _ => (core.refusePunch, [])

def birthdayPort (draw : UInt32) : UInt16 := birthdayPortStart + (draw % birthdayPortWidth).toUInt16

/-- One probe of a birthday spray. -/
def sprayProbe (ip : IpAddr) (core : PunchCore T) (probe : PunchProbe) : PunchCore T × List PunchAction :=
  let (platform, draw) := core.platform.draw
  { core with platform := platform }.sendPunchProbe ⟨ip, birthdayPort draw⟩ probe

/-- The target's part of `handle_punch_birthday`, past its checks. -/
def sprayBirthday (nonce : UInt64) (session : PunchSession) : PunchCore T × List PunchAction :=
  match session.candidates.items.head? with
  | none => (core.refusePunch, [])
  | some first =>
    let core := core.setSession nonce (session.sprayed env.now)
    run (sprayProbe first.ip) core (List.replicate birthdaySprayCap (PunchProbe.sign nonce core.keypair))

def handlePunchBirthday (source : SocketAddr) (nonce : UInt64) (origin target : Pubkey) :
    PunchCore T × List PunchAction :=
  let sender := PunchTransport.peerIdentity core.transport source
  if target ≠ core.localPubkey then
    if sender = some origin && (PunchTransport.connectionAddr core.transport target).isSome &&
        (env.advert target).isSome then
      ((core.queueFrame target (.punchBirthday nonce origin target)).1, [])
    else (core.refusePunch, [])
  else
    match sender, core.punchSessions[nonce]? with
    | some via, some session =>
      if session.peer ≠ origin || session.via ≠ via || session.birthdaySpraySent || !core.birthdayPunch ||
          !session.remoteProfile.birthdayPunch || !PunchSession.isRandom session.remoteProfile then
        (core.refusePunch, [])
      else core.sprayBirthday env nonce session
    | _, _ => (core.refusePunch, [])

def handleFrame (source : SocketAddr) : PunchFrame → PunchCore T × List PunchAction
  | .connectRequest request => core.handleConnectRequest env source request
  | .connectResponse response => core.handleConnectResponse env source response
  | .punchAssist nonce origin target port _ => core.handlePunchAssist env source nonce origin target port
  | .punchObservation nonce origin target observed =>
    core.handlePunchObservation env source nonce origin target observed
  | .punchBracket nonce origin target ip start stop =>
    core.handlePunchBracket env source nonce origin target ip start stop
  | .punchBirthday nonce origin target => core.handlePunchBirthday env source nonce origin target

/-! ### Raw probes -/

/-- What a helper reports of the probe it waited for. -/
def helperReport (helper : PunchHelper) (source : SocketAddr) : Option PunchFrame :=
  match helper.kind with
  | .samePortObservation => some (.punchObservation helper.nonce helper.origin helper.target source)
  | .sequentialBracket =>
    match PunchTransport.connectionAddr core.transport helper.origin with
    | none => none
    | some first =>
      let start := min first.port source.port
      let stop := max first.port source.port
      if first.ip = source.ip && stop.toNat - start.toNat + 1 ≤ maxBracketWidth then
        some (.punchBracket helper.nonce helper.origin helper.target source.ip start stop)
      else none

/-- `handle_punch_helper_probe` on the socket of a helper. -/
def observeProbe (helper : PunchHelper) (event : PunchProbeEvent) : PunchCore T :=
  if !event.probe.verify || event.probe.origin ≠ helper.origin || event.probe.nonce ≠ helper.nonce then core
  else
    match core.helperReport helper event.source with
    | none => core
    | some frame => (core.queueFrame helper.target frame).1

/-- The reply to a probe. A birthday socket that was hit answers itself. -/
def replyProbe (birthdaySocket : Option SocketId) (event : PunchProbeEvent) : PunchCore T × List PunchAction :=
  let reply := PunchProbe.sign event.probe.nonce core.keypair
  match birthdaySocket with
  | some socket =>
    let (core, _, probed) := core.sendPunchProbeFrom socket event.source reply
    (core, probed)
  | none => core.sendPunchProbe event.source reply

/-- The dial of the lower identity, from the birthday socket that was hit if one was. -/
def startDial (birthdaySocket : Option SocketId) (payload : Option (List UInt8)) (dest : SocketAddr) (peer : Pubkey) :
    T × Bool :=
  match birthdaySocket, payload with
  | some socket, _ => PunchTransport.dialExpectingFrom core.transport socket dest peer env.dial
  | none, some payload => PunchTransport.queueDatagramExpecting core.transport dest peer payload env.dial
  | none, none => PunchTransport.dialExpecting core.transport dest peer env.dial

/-- The peer has to prove itself before the session's deadline. -/
def dialPunched (birthdaySocket : Option SocketId) (payload : Option (List UInt8)) (dest : SocketAddr)
    (peer : Pubkey) (deadline : Instant) : PunchCore T :=
  let (transport, dialed) := core.startDial env birthdaySocket payload dest peer
  if dialed then
    { core with transport := transport, confirming := core.confirming.insertIfNew dest ⟨peer, deadline⟩ }
  else { core with transport := transport }

/-- A probe of the session's peer, which is not waiting for a response. -/
def acceptProbe (session : PunchSession) (event : PunchProbeEvent) : PunchCore T × List PunchAction :=
  let shouldDial := core.localPubkey < session.peer && !session.dialStarted
  let birthdaySocket := if event.socket ∈ session.birthdaySockets then some event.socket else none
  -- A dial from a birthday socket leaves the payload to the session.
  let takes := shouldDial && birthdaySocket.isNone
  let core := core.setSession event.probe.nonce (session.reached event.source shouldDial takes env.now)
  let (core, probed) := core.replyProbe birthdaySocket event
  if shouldDial then
    (core.dialPunched env birthdaySocket (if takes then session.payload else none) event.source session.peer
      session.deadline, probed)
  else (core, probed)

def handlePunchProbe (event : PunchProbeEvent) : PunchCore T × List PunchAction :=
  match core.punchHelpers[event.socket]? with
  | some helper => (core.observeProbe helper event, [])
  | none =>
    if !event.probe.verify then (core.refusePunch, [])
    else
      match core.punchSessions[event.probe.nonce]? with
      | none => (core, [])
      | some session =>
        if session.peer ≠ event.probe.origin || session.awaitingResponse then (core, [])
        else core.acceptProbe env session event

/-! ### Runs -/

inductive Input (T : Type) [PunchTransport T] where
  | call (call : PunchTransport.Call T)
  /-- A payload for a peer that cannot be dialed, the only cause of a punch. -/
  | send (env : PunchEnv T) (peer : Pubkey) (payload : Option (List UInt8))
  | frame (env : PunchEnv T) (source : SocketAddr) (frame : PunchFrame)
  | probe (env : PunchEnv T) (event : PunchProbeEvent)
  /-- A connection proved the identity that was expected of it, or any where none was. -/
  | connected (peer : Pubkey)
  /-- A dial at this address was resolved or timed out. -/
  | settled (addr : SocketAddr)
  | timer (now : Instant)

/-- What the environment will answer in this step. -/
def supplied : PunchCore T :=
  { core with platform := { core.platform with granted := env.granted, draws := env.draws } }

def onTimer (now : Instant) : PunchCore T × List PunchAction :=
  let (core, advanced) := core.advancePunches now
  let (core, closed) := (core.expirePunchForwards now).expirePunchHelpers now
  (core, advanced ++ closed)

def step (core : PunchCore T) (input : Input T) : PunchCore T × List PunchAction :=
  match input with
  | .call call => ({ core with transport := PunchTransport.call core.transport call }, [])
  | .send env peer payload =>
    let (core, _, actions) := (core.supplied env).beginPunch env peer payload
    (core, actions)
  | .frame env source frame => (core.supplied env).handleFrame env source frame
  | .probe env event => core.handlePunchProbe env event
  | .connected peer => core.completePunch peer
  | .settled addr => ({ core with confirming := core.confirming.erase addr }, [])
  | .timer now => core.onTimer now

end PunchCore

/-! ### The QUIC transport -/

instance : PunchTransport (OverlayQuicTransport OverlayFrame) where
  Dial := Option (ConnectionHandle × QuinnConn OverlayFrame)
  Call := OverlayQuicTransport.Op OverlayFrame
  call t op := (t.step op).1
  peerIdentity t addr := (t.connections[addr]?).bind (·.peerPubkey)
  connectionAddr t pubkey := t.byPubkey[pubkey]?
  connectionSocket t pubkey := ((t.byPubkey[pubkey]?).bind (fun addr => t.connections[addr]?)).bind (·.socket)
  queueDatagramToPeer t pubkey raw :=
    ((t.queueDatagramToPeer pubkey (.other raw)).1,
      ((t.byPubkey[pubkey]?).bind (fun addr => t.connections[addr]?)).isSome)
  queueDatagramExpecting t dest expected raw dial :=
    ((t.queueDatagramExpecting dest expected (.other raw) dial).1, (t.ensureConnection dest none dial).isSome)
  dialExpecting t dest expected dial :=
    ((t.dialExpecting dest expected dial).1, (t.ensureConnection dest none dial).isSome)
  dialExpectingFrom t socket dest expected dial :=
    ((t.dialExpectingFrom socket dest expected dial).1, (t.ensureConnection dest (some socket) dial).isSome)
  sendPunchProbe t _ _ := (t, true)
  sendPunchProbeFrom t _ _ _ := (t, true)
  registerPunchSocket t socket := (t.step (.registerPunchSocket socket)).1
  unregisterPunchSocket t socket := (t.step (.unregisterPunchSocket socket)).1

/-- The transport of a node after peers have connected to its primary socket. -/
def connectedTo (peers : List (SocketAddr × Pubkey)) : OverlayQuicTransport OverlayFrame :=
  peers.foldl (fun t (addr, pubkey) =>
    let conn := { QuinnConn.idle with identity := some pubkey, events := [.handshakeDataReady, .connected] }
    (t.step (.onDatagram (.newConnection addr 0 (some (t.connections.size, conn))))).1) (OverlayQuicTransport.new 0 none)

end Lightbringer.Overlay
