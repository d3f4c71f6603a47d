import Lightbringer.Lib.Batches
import Lightbringer.Overlay.PunchTables
import Lightbringer.Overlay.TimerDiscipline
import Lightbringer.Overlay.TransportCaps

/-!
# What a node can be made to keep

The tables of the core over the QUIC transport have fixed limits, whatever peers send. The transport's own limits are
carried by its type: no operation leads out of `CappedTransport`.
-/

namespace Lightbringer.Overlay
open Std Machine PortMap

/-! ### Dial-back -/

namespace OverlayCore

variable {T : Type} {core : OverlayCore T}

/-- Helper probes are limited, and at most one dial-back of each kind is pending. -/
structure Bounded (core : OverlayCore T) : Prop where
  probes : core.helperProbes.size ≤ maxHelperProbes
  pending : ∀ (n n' : Nat) entry entry', core.dialbackPending[n]? = some entry →
    core.dialbackPending[n']? = some entry' → entry.kind = entry'.kind → n = n'

theorem Bounded.same {core' : OverlayCore T} (bounded : core.Bounded) (probes : core'.helperProbes = core.helperProbes)
    (pending : core'.dialbackPending = core.dialbackPending) : core'.Bounded := by
  refine ⟨?_, ?_⟩
  · rw [probes]
    exact bounded.probes
  · rw [pending]
    exact bounded.pending

theorem Bounded.fewer {core' : OverlayCore T} (bounded : core.Bounded)
    (probes : ∀ k : ProbeId, (core'.helperProbes[k]?).isSome → (core.helperProbes[k]?).isSome)
    (pending : ∀ (n : Nat) entry, core'.dialbackPending[n]? = some entry → core.dialbackPending[n]? = some entry) :
    core'.Bounded :=
  ⟨(Entries.size_le probes).trans bounded.probes, fun n n' entry entry' found found' =>
    bounded.pending n n' entry entry' (pending n entry found) (pending n' entry' found')⟩

theorem kind_of_free {kind : CandidateKind} (free : core.awaiting kind = false) {n : Nat} {entry : DialBackPending}
    (found : core.dialbackPending[n]? = some entry) : entry.kind ≠ kind := by
  intro same
  have listed : entry ∈ core.dialbackPending.values := by
    rw [Batches.values_eq_toList]
    exact List.mem_map_of_mem (TreeMap.mem_toList_iff_getElem?_eq_some.mpr found)
  have none := List.any_eq_false.mp free entry listed
  simp [same] at none

variable [OverlayTransport T] (env : Env T)

theorem bounded_rememberRequest (bounded : core.Bounded) {kind : CandidateKind} (free : core.awaiting kind = false)
    (helper : Pubkey) (candidate : SocketAddr) (probePort : Option UInt16) (sent : T × Bool) :
    (core.rememberRequest env helper kind candidate probePort sent).1.Bounded := by
  unfold rememberRequest
  dsimp only
  split
  · refine ⟨bounded.probes, fun n n' entry entry' found found' same => ?_⟩
    rw [Entries.getElem?_insert] at found found'
    split at found
    next here =>
      cases found
      split at found'
      next here' => exact here.symm.trans here'
      next => exact absurd same.symm (kind_of_free free found')
    next =>
      split at found'
      next =>
        cases found'
        exact absurd same (kind_of_free free found)
      next => exact bounded.pending n n' entry entry' found found' same
  · exact bounded.same rfl rfl

theorem bounded_requestUnconfirmed (bounded : core.Bounded) (confirmed : Option SocketAddr) (kind : CandidateKind)
    (candidate : Option SocketAddr) (probePort : Option UInt16) :
    (core.requestUnconfirmed env confirmed kind candidate probePort).1.Bounded := by
  unfold requestUnconfirmed requestDialback
  split
  · split
    · exact bounded
    split
    · exact bounded
    next free =>
      split
      · exact bounded
      · exact bounded_rememberRequest env bounded (Bool.eq_false_iff.mpr free) _ _ probePort _
  · exact bounded

theorem bounded_maybeRequestDialbackV6 (bounded : core.Bounded) : (core.maybeRequestDialbackV6 env).1.Bounded := by
  unfold maybeRequestDialbackV6
  split
  · exact bounded.same rfl rfl
  dsimp only
  have dropped : Bounded { core with confirmedV6 := dropStale core.confirmedV6 core.candidateV6 } := bounded.same rfl rfl
  split
  · exact dropped
  unfold requestDialbackV6
  split
  · exact dropped
  split
  · exact dropped
  next free =>
    split
    · exact dropped
    · exact bounded_rememberRequest env dropped (Bool.eq_false_iff.mpr free) _ _ none _

theorem bounded_maybeRequestDialback (bounded : core.Bounded) : (core.maybeRequestDialback env).1.Bounded := by
  unfold maybeRequestDialback
  split
  · exact bounded.same rfl rfl
  · have dropped : ∀ observed portmapped, Bounded { core with
        confirmedDirect := dropStale core.confirmedDirect observed
        confirmedPortmap := dropStale core.confirmedPortmap portmapped } := fun _ _ => bounded.same rfl rfl
    exact bounded_maybeRequestDialbackV6 env
      (bounded_requestUnconfirmed env (bounded_requestUnconfirmed env (dropped _ _) _ _ _ _) _ _ _ _)

theorem bounded_serveDialback (bounded : core.Bounded) (requester : Pubkey) (source : SocketAddr) (nonce : Nat)
    (probePort : Option UInt16) : (core.serveDialback env requester source nonce probePort).1.Bounded := by
  unfold serveDialback
  dsimp only
  split
  · exact bounded.same rfl rfl
  next admitted =>
    split
    · exact bounded.same rfl rfl
    split
    · exact bounded.same rfl rfl
    split
    · rw [Bool.or_eq_true, not_or, decide_eq_true_eq] at admitted
      exact ⟨TreeMap.size_insert_le.trans (Nat.not_le.mp admitted.2), bounded.pending⟩
    · exact bounded.same rfl rfl

theorem bounded_handleFrame (bounded : core.Bounded) (source : SocketAddr) (frame : OverlayFrame) :
    (core.handleFrame env source frame).1.Bounded := by
  cases frame with
  | addressObservation observed =>
    dsimp only [handleFrame, handleObservation]
    split
    · exact bounded
    split
    · exact bounded.same rfl rfl
    · exact bounded.same rfl rfl
  | dialBackRequest nonce probePort =>
    dsimp only [handleFrame, handleDialbackRequest]
    split
    · exact bounded
    · exact bounded_serveDialback env bounded _ source nonce probePort
  | dialBackResult nonce ok =>
    have used : Bounded { core with dialbackPending := core.dialbackPending.erase nonce } := by
      refine bounded.fewer (fun _ there => there) (fun n entry found => ?_)
      rw [Entries.getElem?_erase] at found
      split at found
      · cases found
      · exact found
    dsimp only [handleFrame, handleDialbackResult]
    split
    · exact bounded
    split
    · split
      · exact used.same rfl rfl
      · exact used.same rfl rfl
      · exact used.same rfl rfl
    · exact used
  | other raw => exact bounded

theorem bounded_concludeProbe (bounded : core.Bounded) (probe : ProbeId) (helper : HelperProbe) (ok : Bool)
    (event : Option ProbeEvent) : (core.concludeProbe probe helper ok event).1.Bounded := by
  refine bounded.fewer (fun k there => ?_) (fun _ _ found => found)
  have left : ((core.helperProbes.erase probe)[k]?).isSome = true := there
  rw [Entries.getElem?_erase] at left
  split at left
  · cases left
  · exact left

theorem bounded_probeEvent (bounded : core.Bounded) : (core.step .probeEvent).1.Bounded := by
  have polled : ∀ transport, Bounded { core with transport := transport } := fun _ => bounded.same rfl rfl
  dsimp only [OverlayCore.step]
  split
  next transport event _ =>
    unfold onProbeEvent
    split
    · exact polled transport
    next helper found => exact bounded_concludeProbe (polled transport) _ helper _ _
  · exact polled _

theorem bounded_expireDialbacks (bounded : core.Bounded) (now : Instant) : (core.expireDialbacks now).1.Bounded := by
  have filtered : Bounded { core with
      dialbackPending := core.dialbackPending.filter (fun _ pending => now < pending.deadline) } := by
    refine bounded.fewer (fun _ there => there) (fun n entry found => ?_)
    rw [TreeMap.getElem?_filter'] at found
    exact (Option.filter_eq_some_iff.mp found).1
  exact run_invariant (P := Bounded) filtered
    (fun _ entry bounded _ => bounded_concludeProbe bounded entry.1 entry.2 false none) _ (meets_true _)

end OverlayCore

/-! ### Repair -/

namespace RepairCore

variable {T : Type} {core : RepairCore T}

structure Bounded (core : RepairCore T) : Prop where
  outbound : core.outboundRepairs.size ≤ maxOutboundRepairs
  inbound : core.inboundRepairs.size ≤ maxInboundRepairs

theorem bounded_push (bounded : core.Bounded) (event : CoreEvent) : (core.push event).1.Bounded :=
  ⟨bounded.outbound, bounded.inbound⟩

theorem bounded_eraseInbound (bounded : core.Bounded) (stream : OverlayStreamId) :
    Bounded { core with inboundRepairs := core.inboundRepairs.erase stream } :=
  ⟨bounded.outbound, TreeMap.size_erase_le.trans bounded.inbound⟩

theorem bounded_eraseOutbound (bounded : core.Bounded) (stream : OverlayStreamId) :
    Bounded { core with outboundRepairs := core.outboundRepairs.erase stream } :=
  ⟨TreeMap.size_erase_le.trans bounded.outbound, bounded.inbound⟩

/-- An entry is rewritten. -/
theorem bounded_rewriteInbound (bounded : core.Bounded) {stream : OverlayStreamId} {repair : InboundRepair}
    (found : core.inboundRepairs[stream]? = some repair) (repair' : InboundRepair) :
    Bounded { core with inboundRepairs := core.inboundRepairs.insert stream repair' } := by
  refine ⟨bounded.outbound, (Entries.size_le (fun k there => ?_)).trans bounded.inbound⟩
  rw [Entries.getElem?_insert] at there
  split at there
  next here => rw [← here, found]; rfl
  next => exact there

theorem bounded_rewriteOutbound (bounded : core.Bounded) {stream : OverlayStreamId} {repair : OutboundRepair}
    (found : core.outboundRepairs[stream]? = some repair) (repair' : OutboundRepair) :
    Bounded { core with outboundRepairs := core.outboundRepairs.insert stream repair' } := by
  refine ⟨(Entries.size_le (fun k there => ?_)).trans bounded.outbound, bounded.inbound⟩
  rw [Entries.getElem?_insert] at there
  split at there
  next here => rw [← here, found]; rfl
  next => exact there

theorem bounded_malformed (bounded : core.Bounded) : core.malformed.Bounded :=
  ⟨bounded.outbound, bounded.inbound⟩

theorem bounded_refused (bounded : core.Bounded) : core.refused.Bounded :=
  ⟨bounded.outbound, bounded.inbound⟩

variable [StreamTransport T]

theorem bounded_resetStream (bounded : core.Bounded) (stream : OverlayStreamId) : (core.resetStream stream).1.Bounded :=
  ⟨bounded.outbound, bounded.inbound⟩

theorem bounded_dropInbound (bounded : core.Bounded) (stream : OverlayStreamId) : (core.dropInbound stream).1.Bounded :=
  bounded_resetStream (bounded_eraseInbound bounded stream) stream

theorem bounded_dropOutbound (bounded : core.Bounded) (stream : OverlayStreamId) (peer : Pubkey) :
    (core.dropOutbound stream peer).1.Bounded :=
  bounded_push (bounded_resetStream (bounded_eraseOutbound bounded stream) stream) _

theorem bounded_requestRepair (bounded : core.Bounded) (now : Instant) (peer : Pubkey) (request : RepairReq) :
    (core.requestRepair now peer request).1.Bounded := by
  unfold requestRepair
  split
  · exact bounded
  next room =>
    split
    · exact ⟨bounded.outbound, bounded.inbound⟩
    · exact ⟨TreeMap.size_insert_le.trans (Nat.not_le.mp room), bounded.inbound⟩

theorem bounded_onRepairResponse (bounded : core.Bounded) (stream : OverlayStreamId) (shred : Option (List UInt8)) :
    (core.onRepairResponse stream shred).1.Bounded := by
  have erased := bounded_eraseInbound bounded stream
  unfold onRepairResponse
  split
  · exact bounded
  dsimp only
  split
  · exact erased
  split
  · exact ⟨erased.outbound, erased.inbound⟩
  · exact bounded_resetStream erased stream

theorem bounded_handleData (bounded : core.Bounded) (stream : OverlayStreamId) (bytes : List UInt8) :
    (core.handleData stream bytes).1.Bounded := by
  unfold handleData
  split
  next repair found =>
    split
    · exact bounded_dropInbound (bounded_malformed bounded) stream
    dsimp only
    split
    · exact bounded_dropInbound (bounded_malformed bounded) stream
    · exact bounded_rewriteInbound bounded found _
  · split
    next repair found =>
      dsimp only
      split
      · exact bounded_dropOutbound (bounded_malformed bounded) stream _
      · exact bounded_rewriteOutbound bounded found _
    · exact bounded

theorem bounded_handleFinished (bounded : core.Bounded) (now : Instant) (stream : OverlayStreamId) :
    (core.handleFinished now stream).1.Bounded := by
  unfold handleFinished
  split
  next repair found =>
    unfold finishInbound
    split
    · exact bounded
    split
    · exact bounded_dropInbound (bounded_malformed bounded) stream
    dsimp only
    have limited : ∀ rate, Bounded { core with repairRate := rate } :=
      fun _ => ⟨bounded.outbound, bounded.inbound⟩
    split
    · have rewritten := fun repair' => bounded_rewriteInbound (limited (core.repairRate.checkAndIncrement repair.peer now).1)
        found repair'
      exact bounded_push (rewritten _) _
    · exact bounded_dropInbound (bounded_refused (limited _)) stream
  · split
    · have erased := bounded_eraseOutbound bounded stream
      unfold finishOutbound
      dsimp only
      split
      · exact bounded_push erased _
      · exact bounded_push erased _
      · exact bounded_push (bounded_malformed erased) _
    · exact bounded

theorem bounded_poll (bounded : core.Bounded) (now : Instant) : (core.poll now).1.Bounded := by
  unfold poll
  split
  · exact ⟨bounded.outbound, bounded.inbound⟩
  next transport event _ =>
    have polled : Bounded { core with transport := transport } := ⟨bounded.outbound, bounded.inbound⟩
    dsimp only
    cases event with
    | opened stream peer =>
      dsimp only [handleStreamEvent, handleOpened]
      split
      · exact bounded_resetStream (bounded_refused polled) stream
      next room => exact ⟨polled.outbound, TreeMap.size_insert_le.trans (Nat.not_le.mp room)⟩
    | data stream bytes => exact bounded_handleData polled stream bytes
    | finished stream => exact bounded_handleFinished polled now stream
    | failed stream =>
      have erased := bounded_eraseInbound polled stream
      dsimp only [handleStreamEvent, handleFailed]
      split
      · exact bounded_push (bounded_eraseOutbound erased stream) _
      · exact erased

theorem bounded_expireRepairs (bounded : core.Bounded) (now : Instant) : (core.expireRepairs now).1.Bounded := by
  have swept := run_invariant (P := Bounded) bounded
    (fun _ entry bounded _ => bounded_dropOutbound bounded entry.1 entry.2.peer)
    (core.outboundRepairs.toList.filter (fun entry => entry.2.deadline ≤ now)) (meets_true _)
  exact run_invariant (P := Bounded) swept (fun _ entry bounded _ => bounded_dropInbound bounded entry.1) _ (meets_true _)

end RepairCore

/-! ### The transport within its limits -/

abbrev CappedTransport := { t : OverlayQuicTransport OverlayFrame // t.Capped }

namespace CappedTransport
open OverlayQuicTransport

def new (socket : SocketId) (socketV6 : Option SocketId) : CappedTransport :=
  ⟨.new socket socketV6, capped_new socket socketV6⟩

def step (t : CappedTransport) (op : Op OverlayFrame) : CappedTransport := ⟨(t.val.step op).1, capped_step t.property op⟩

end CappedTransport

open OverlayQuicTransport in
instance : OverlayTransport CappedTransport where
  Dial := OverlayTransport.Dial (OverlayQuicTransport OverlayFrame)
  Call := OverlayTransport.Call (OverlayQuicTransport OverlayFrame)
  call t op := t.step op.1
  peerIdentity t addr := OverlayTransport.peerIdentity t.val addr
  connectedPeers t := OverlayTransport.connectedPeers t.val
  connections t := OverlayTransport.connections t.val
  queueDatagramToPeer t pubkey frame :=
    (t.step (.queueDatagramToPeer pubkey frame), (OverlayTransport.queueDatagramToPeer t.val pubkey frame).2)
  queueDatagram t dest frame dial :=
    (t.step (.queueDatagram dest frame dial), (OverlayTransport.queueDatagram t.val dest frame dial).2)
  startProbe t socket addr dial := (t.step (.startProbe socket addr dial), (t.val.startProbe socket addr dial).2)
  closeProbe t probe := t.step (.closeProbe probe)
  pollProbeEvent t := (t.step .pollProbeEvent, t.val.probeEvents.head?)

instance : RoutingTransport CappedTransport where
  Payload := OverlayFrame
  Dial := RoutingTransport.Dial (OverlayQuicTransport OverlayFrame)
  Call := OverlayQuicTransport.Op OverlayFrame
  call t op := t.step op
  peerIdentity t addr := RoutingTransport.peerIdentity t.val addr
  connectedPeers t := RoutingTransport.connectedPeers t.val
  connectionAddr t pubkey := RoutingTransport.connectionAddr t.val pubkey
  queueDatagramToPeer t pubkey frame := t.step (.queueDatagramToPeer pubkey frame)
  queueDatagramExpecting t dest expected frame dial :=
    (t.step (.queueDatagramExpecting dest expected frame dial),
      (RoutingTransport.queueDatagramExpecting t.val dest expected frame dial).2)
  dialExpecting t dest expected dial :=
    (t.step (.dialExpecting dest expected dial), (RoutingTransport.dialExpecting t.val dest expected dial).2)
  dropConnection t addr := t.step (.dropConnection addr)
  mem_connectedPeers t pubkey := RoutingTransport.mem_connectedPeers t.val pubkey

instance : StreamTransport CappedTransport where
  Call := OverlayQuicTransport.Op OverlayFrame
  call t op := t.step op
  openStream t pubkey := (t.step (.openStream pubkey), (StreamTransport.openStream t.val pubkey).2)
  writeStream t stream bytes := t.step (.writeStream stream bytes)
  finishStream t stream := t.step (.finishStream stream)
  resetStream t stream := t.step (.resetStream stream)
  pollStreamEvent t := (t.step .pollStreamEvent, t.val.streamEvents.head?)
  nextStream t := t.val.nextStream
  announced t := t.val.announced
  call_grows t op := StreamTransport.call_grows t.val op
  openStream_fresh t pubkey := StreamTransport.openStream_fresh t.val pubkey
  openStream_grows t pubkey := StreamTransport.openStream_grows t.val pubkey
  writeStream_grows t stream bytes := StreamTransport.writeStream_grows t.val stream bytes
  finishStream_grows t stream := StreamTransport.finishStream_grows t.val stream
  resetStream_grows t stream := StreamTransport.resetStream_grows t.val stream
  pollStreamEvent_next t := StreamTransport.pollStreamEvent_next t.val
  pollStreamEvent_announced t := StreamTransport.pollStreamEvent_announced t.val

instance : PunchTransport CappedTransport where
  Dial := PunchTransport.Dial (OverlayQuicTransport OverlayFrame)
  Call := OverlayQuicTransport.Op OverlayFrame
  call t op := t.step op
  peerIdentity t addr := PunchTransport.peerIdentity t.val addr
  connectionAddr t pubkey := PunchTransport.connectionAddr t.val pubkey
  connectionSocket t pubkey := PunchTransport.connectionSocket t.val pubkey
  queueDatagramToPeer t pubkey raw :=
    (t.step (.queueDatagramToPeer pubkey (.other raw)), (PunchTransport.queueDatagramToPeer t.val pubkey raw).2)
  queueDatagramExpecting t dest expected raw dial :=
    (t.step (.queueDatagramExpecting dest expected (.other raw) dial),
      (PunchTransport.queueDatagramExpecting t.val dest expected raw dial).2)
  dialExpecting t dest expected dial :=
    (t.step (.dialExpecting dest expected dial), (PunchTransport.dialExpecting t.val dest expected dial).2)
  dialExpectingFrom t socket dest expected dial :=
    (t.step (.dialExpectingFrom socket dest expected dial),
      (PunchTransport.dialExpectingFrom t.val socket dest expected dial).2)
  sendPunchProbe t _ _ := (t, true)
  sendPunchProbeFrom t _ _ _ := (t, true)
  registerPunchSocket t socket := t.step (.registerPunchSocket socket)
  unregisterPunchSocket t socket := t.step (.unregisterPunchSocket socket)

instance : ServiceTransport CappedTransport where
  Activity := ServiceTransport.Activity (OverlayQuicTransport OverlayFrame)
  act t op := t.step op.1
  Timeouts := ServiceTransport.Timeouts (OverlayQuicTransport OverlayFrame)
  onTimer t due := t.step (.onTimer due.1 due.2)

/-! ### The parts together -/

namespace Service

section

variable [Ed25519] {T : Type} {service : Service T} {now : Instant}

structure Bounded (service : Service T) : Prop where
  helperProbes : service.dialback.helperProbes.size ≤ maxHelperProbes
  pending : ∀ (n n' : Nat) entry entry', service.dialback.dialbackPending[n]? = some entry →
    service.dialback.dialbackPending[n']? = some entry' → entry.kind = entry'.kind → n = n'
  outbound : service.repair.outboundRepairs.size ≤ maxOutboundRepairs
  inbound : service.repair.inboundRepairs.size ≤ maxInboundRepairs
  keyed : service.Keyed
  sessions : service.punch.punchSessions.size ≤ maxPunchSessions
  forwards : service.punch.punchForwards.size ≤ maxPunchForwards
  helpers : service.punch.punchHelpers.size ≤ maxPunchHelpers

theorem Bounded.overlayCore (held : service.Bounded) : service.overlayCore.Bounded := ⟨held.helperProbes, held.pending⟩

theorem Bounded.repairCore (held : service.Bounded) : service.repairCore.Bounded := ⟨held.outbound, held.inbound⟩

theorem Bounded.punchCore (held : service.Bounded) : service.punchCore.Capped :=
  ⟨held.sessions, held.forwards, held.helpers⟩

theorem Bounded.overlay {result : OverlayCore T × List Action} (held : service.Bounded) (bounded : result.1.Bounded) :
    (service.withOverlay result).1.Bounded :=
  { held with helperProbes := bounded.probes, pending := bounded.pending }

theorem Bounded.routing (held : service.Bounded) (result : RoutingCore T × List RoutingAction) :
    (service.withRouting result).1.Bounded := { held with }

theorem Bounded.repaired {result : RepairCore T × List RepairAction} (held : service.Bounded)
    (bounded : result.1.Bounded) : (service.withRepair result).1.Bounded :=
  { held with outbound := bounded.outbound, inbound := bounded.inbound }

theorem Bounded.mapped (held : service.Bounded) (granted : List Bool)
    (act : PortMap.PortMapper → PortMap.PortMapper × List PortMapAction) : (service.withPortmap granted act).1.Bounded := by
  unfold withPortmap
  split
  · exact held
  · exact { held with }

variable [PunchTransport T]

theorem Bounded.punched (held : service.Bounded) (input : PunchCore.Input T) :
    (service.withPunch (service.punchCore.step input)).1.Bounded := by
  have keyed := PunchCore.keyed_step held.keyed input
  have capped := PunchCore.capped_step held.keyed held.punchCore input
  generalize service.punchCore.step input = result at keyed capped ⊢
  exact { held with
    keyed := keyed
    sessions := capped.sessions
    forwards := capped.forwards
    helpers := capped.helpers }

theorem bounded_beginPunch (held : service.Bounded) (env : PunchEnv T) (peer : Pubkey) (payload : Option (List UInt8)) :
    (service.beginPunch env peer payload).1.Bounded := held.punched (.send env peer payload)

variable [OverlayTransport T] [RoutingTransport T] [StreamTransport T] [ServiceTransport T]

omit [RoutingTransport T] [StreamTransport T] [PunchTransport T] [ServiceTransport T] in
theorem bounded_handleFrame (held : service.Bounded) (grant : Bool) (dial : OverlayTransport.Dial T)
    (source : SocketAddr) (frame : OverlayFrame) : (service.handleFrame now grant dial source frame).1.Bounded := by
  unfold handleFrame
  dsimp only
  have handled := held.overlay (OverlayCore.bounded_handleFrame
    ⟨now, ({ service.platform with granted := [grant] }.bind).2, dial⟩ held.overlayCore source frame)
  split
  · exact { handled with }
  · exact handled

omit [StreamTransport T] [ServiceTransport T] in
theorem bounded_onConnected (held : service.Bounded) (addr : SocketAddr) (pubkey : Pubkey) :
    (service.onConnected addr pubkey).1.Bounded := by
  have kept := held.routing (service.routingCore.resolveConfirm addr pubkey)
  unfold onConnected
  dsimp only
  split
  · exact { kept.punched (.connected pubkey) with }
  · exact kept

omit [OverlayTransport T] [StreamTransport T] [ServiceTransport T] in
theorem bounded_sendToPeer (held : service.Bounded) (env : PunchEnv T) (dial : RoutingTransport.Dial T) (pubkey : Pubkey)
    (payload : RoutingTransport.Payload T) (raw : List UInt8) :
    (service.sendToPeer now env dial pubkey payload raw).1.Bounded := by
  unfold sendToPeer
  split
  · have begun := bounded_beginPunch held (timed env now) pubkey (some raw)
    dsimp only
    split
    · exact { begun with }
    · exact { begun with }
  · exact held.routing _

variable [AdvertSignature]

theorem bounded_onEvent (held : service.Bounded) (event : Event T) : (service.onEvent now event).1.Bounded := by
  cases event with
  | activity activity => exact { held with }
  | gateway env granted source payload => exact held.mapped granted _
  | tcp env granted event => exact held.mapped granted _
  | frame grant dial source frame => exact bounded_handleFrame held grant dial source frame
  | probeEvent => exact held.overlay (OverlayCore.bounded_probeEvent held.overlayCore)
  | connected addr pubkey => exact bounded_onConnected held addr pubkey
  | advert source signed raw => exact held.routing _
  | send env dial pubkey payload raw => exact bounded_sendToPeer held env dial pubkey payload raw
  | dial addr expected dial => exact held.routing _
  | punch env peer => exact bounded_beginPunch held (timed env now) peer none
  | punchFrame env source frame => exact held.punched _
  | punchProbe env event => exact held.punched _
  | requestRepair peer request => exact held.repaired (RepairCore.bounded_requestRepair held.repairCore now peer request)
  | repairResponse stream shred => exact held.repaired (RepairCore.bounded_onRepairResponse held.repairCore stream shred)
  | streamEvent => exact held.repaired (RepairCore.bounded_poll held.repairCore now)

omit [AdvertSignature] [StreamTransport T] [PunchTransport T] in
theorem bounded_advertise (held : service.Bounded) (env : TimerEnv T) : (service.advertise env).1.Bounded := by
  have scheduled : Bounded { service with
      dialback := { service.dialback with nextAdvert := env.now + advertInterval }
      transport := env.sends.foldl ServiceTransport.act service.transport } := { held with }
  have step : ∀ (service : Service T) dial, service.Bounded → (probeDial env.now service dial).1.Bounded :=
    fun _ _ held => held.routing _
  have dialed := run_invariant (P := Bounded) scheduled (fun service dial held _ => step service dial held) env.dials
    (meets_true env.dials)
  exact dialed.overlay (OverlayCore.bounded_maybeRequestDialback _ dialed.overlayCore)

omit [AdvertSignature] in
theorem bounded_fireDeadlines (held : service.Bounded) (env : TimerEnv T) : (service.fireDeadlines env).1.Bounded := by
  have renewed : (service.renew env).Bounded := by
    have start : Bounded { service with transport := ServiceTransport.onTimer service.transport env.timeouts } :=
      { held with }
    have mapped := start.mapped env.granted (fun mapper => mapper.onTimer { env.portmap with now := env.now })
    unfold renew
    dsimp only
    split
    · exact bounded_advertise mapped env
    · exact mapped
  rw [fireDeadlines_eq]
  generalize service.renew env = service at renewed ⊢
  have repaired := renewed.repaired (RepairCore.bounded_expireRepairs renewed.repairCore env.now)
  have replied := repaired.overlay (OverlayCore.bounded_expireDialbacks repaired.overlayCore env.now)
  exact (replied.routing _).punched (.timer env.now)

theorem bounded_step (held : service.Bounded) (call : Call T) : (service.step call).1.Bounded := by
  cases call with
  | event now event => exact bounded_onEvent held event
  | onTimer env pumped =>
    exact run_invariant (P := Bounded) (bounded_fireDeadlines held env)
      (fun _ event held _ => bounded_onEvent held event) pumped (meets_true pumped)

end

end Service

/-! ### The events of the core -/

/-- What waits for the driver in `events`. -/
inductive QueuedEvent where
  | peerConnected (peer : SocketAddr) (pubkey : Option Pubkey)
  | peerDisconnected (peer : SocketAddr) (reason : String)
  | repair (event : CoreEvent)
  | shredForFilter (packet : List UInt8)
  deriving DecidableEq

def TransportEvent.queued : TransportEvent → QueuedEvent
  | .connected peer pubkey => .peerConnected peer pubkey
  | .disconnected peer reason => .peerDisconnected peer reason

def ServiceAction.queued : ServiceAction → Option QueuedEvent
  | .repair (.pushed event) => some (.repair event)
  | _ => none

section
variable [Ed25519] [AdvertSignature]

/-- The core over the QUIC transport, with what the driver has not taken from it. -/
structure QuicNode where
  service : Service CappedTransport
  events : List QueuedEvent

/-- A call of the driver, one transport event of its pump, a shred that it has not seen, or `poll_event`. -/
inductive QuicNodeInput where
  | call (call : Service.Call CappedTransport)
  | transportEvent
  | shred (packet : List UInt8)
  | pollEvent

namespace QuicNode
variable (node : QuicNode)

def pushEvent (event : QueuedEvent) : QuicNode := { node with events := pushBounded node.events event maxCoreEvents }

def step (input : QuicNodeInput) : QuicNode × List ServiceAction :=
  match input with
  | .call call =>
    let (service, actions) := node.service.step call
    ((actions.filterMap ServiceAction.queued).foldl pushEvent { node with service := service }, actions)
  | .transportEvent =>
    match node.service.transport.val.events.head? with
    | none => (node, [])
    | some event =>
      let polled := { node.service with transport := node.service.transport.step .pollEvent }
      (pushEvent { node with service := polled } event.queued, [])
  | .shred packet => (node.pushEvent (.shredForFilter packet), [])
  | .pollEvent => ({ node with events := node.events.drop 1 }, [])

def new (config : Service.Config) (keypair : Ed25519.Keypair) (socket : SocketId) (socketV6 : Option SocketId)
    (sockets : Nat) (now : Instant) : QuicNode :=
  ⟨.new (.new socket socketV6) config keypair sockets now, []⟩

/-- Every table of the core and of its transport is within its limit. -/
structure Capped : Prop where
  punchSessions : node.service.punch.punchSessions.size ≤ 128
  punchForwards : node.service.punch.punchForwards.size ≤ 512
  punchHelpers : node.service.punch.punchHelpers.size ≤ 64
  helperProbes : node.service.dialback.helperProbes.size ≤ 64
  dialbackPending : ∀ (n n' : Nat) entry entry', node.service.dialback.dialbackPending[n]? = some entry →
    node.service.dialback.dialbackPending[n']? = some entry' → entry.kind = entry'.kind → n = n'
  outboundRepairs : node.service.repair.outboundRepairs.size ≤ 1024
  inboundRepairs : node.service.repair.inboundRepairs.size ≤ 1024
  events : node.events.length ≤ 8192
  connections : node.service.transport.val.connections.size ≤ 1024
  streamStates : node.service.transport.val.streamStates.size ≤ 4096
  probes : node.service.transport.val.probes.size ≤ 256
  pending : ∀ (addr : SocketAddr) c, node.service.transport.val.connections[addr]? = some c → c.pending.length ≤ 1024

variable {node}

omit [AdvertSignature] in
theorem pushEvents_spec (events : List QueuedEvent) (short : node.events.length ≤ maxCoreEvents) :
    (events.foldl pushEvent node).service = node.service ∧
      (events.foldl pushEvent node).events.length ≤ maxCoreEvents := by
  induction events generalizing node with
  | nil => exact ⟨rfl, short⟩
  | cons event rest ih => exact ih (length_pushBounded short (by decide) event)

theorem bounded_step (bounded : node.service.Bounded) (short : node.events.length ≤ maxCoreEvents) (input : QuicNodeInput) :
    (node.step input).1.service.Bounded ∧ (node.step input).1.events.length ≤ maxCoreEvents := by
  cases input with
  | call call =>
    have called : ({ node with service := (node.service.step call).1 } : QuicNode).events.length ≤ maxCoreEvents := short
    obtain ⟨same, short'⟩ := pushEvents_spec ((node.service.step call).2.filterMap ServiceAction.queued) called
    refine ⟨?_, short'⟩
    have stepped := Service.bounded_step bounded call
    exact same ▸ stepped
  | transportEvent =>
    dsimp only [step]
    split
    · exact ⟨bounded, short⟩
    · exact ⟨{ bounded with }, length_pushBounded short (by decide) _⟩
  | shred packet => exact ⟨bounded, length_pushBounded short (by decide) _⟩
  | pollEvent => exact ⟨bounded, (List.length_drop.trans_le (Nat.sub_le _ _)).trans short⟩

/-- Whatever the driver, the network and the peers do, no table grows over its limit. -/
theorem tables_within_limits (config : Service.Config) (keypair : Ed25519.Keypair) (socket : SocketId)
    (socketV6 : Option SocketId) (sockets : Nat) (now : Instant) (inputs : List QuicNodeInput) :
    (run step (new config keypair socket socketV6 sockets now) inputs).1.Capped := by
  have start : (new config keypair socket socketV6 sockets now).service.Bounded := by
    refine ⟨Nat.zero_le _, fun n _ entry _ found => ?_, Nat.zero_le _, Nat.zero_le _, fun n session found => ?_,
      Nat.zero_le _, Nat.zero_le _, Nat.zero_le _⟩
    · cases found
    · cases found
  obtain ⟨bounded, short⟩ := run_invariant
    (P := fun node : QuicNode => node.service.Bounded ∧ node.events.length ≤ maxCoreEvents) ⟨start, Nat.zero_le _⟩
    (fun _ input held _ => bounded_step held.1 held.2 input) inputs (meets_true inputs)
  have capped := (run step (new config keypair socket socketV6 sockets now) inputs).1.service.transport.property
  exact {
    punchSessions := bounded.sessions
    punchForwards := bounded.forwards
    punchHelpers := bounded.helpers
    helperProbes := bounded.helperProbes
    dialbackPending := bounded.pending
    outboundRepairs := bounded.outbound
    inboundRepairs := bounded.inbound
    events := short
    connections := capped.connections
    streamStates := capped.streams
    probes := capped.probes
    pending := capped.pending }

end QuicNode

end

end Lightbringer.Overlay
