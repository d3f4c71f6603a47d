import Lightbringer.Overlay.PortMapTimers
import Lightbringer.Overlay.Service

/-!
# Deadlines after `on_timer`

A driver sleeps until `poll_timeout` and then calls `on_timer`. Were a deadline still due after that call, it would not
sleep at all. Each part of the core removes or renews what is due, and whatever it schedules lies ahead, but for the
probes of a punch: a session that waits for its response keeps a due probe, and a probe of the peer makes the next one
due at once.
-/

namespace Lightbringer.Overlay
open Std Machine Deadlines

/-! ### Dial-back -/

namespace OverlayCore

variable {T : Type} {core core' core'' : OverlayCore T} {now : Instant}

/-- What is asked or probed anew is not due yet. -/
structure Renewed (now : Instant) (core core' : OverlayCore T) : Prop where
  advert : core'.nextAdvert = core.nextAdvert
  pending : Renews now DialBackPending.deadline core.dialbackPending core'.dialbackPending
  probes : Renews now HelperProbe.deadline core.helperProbes core'.helperProbes

theorem renewed_of_same (advert : core'.nextAdvert = core.nextAdvert)
    (pending : core'.dialbackPending = core.dialbackPending) (probes : core'.helperProbes = core.helperProbes) :
    Renewed now core core' :=
  ⟨advert, pending ▸ renews_refl _, probes ▸ renews_refl _⟩

theorem renewed_trans (first : Renewed now core core') (second : Renewed now core' core'') : Renewed now core core'' :=
  ⟨second.advert.trans first.advert, renews_trans first.pending second.pending,
    renews_trans first.probes second.probes⟩

theorem later_dialback (now : Instant) : now < now + dialbackTimeout := Nat.lt_add_of_pos_right (by decide)

variable [OverlayTransport T] (env : Env T)

theorem renewed_rememberRequest (core : OverlayCore T) (helper : Pubkey) (kind : CandidateKind)
    (candidate : SocketAddr) (probePort : Option UInt16) (sent : T × Bool) :
    Renewed env.now core (core.rememberRequest env helper kind candidate probePort sent).1 := by
  unfold rememberRequest
  dsimp only
  split
  · exact ⟨rfl, renews_insert _ _ (later_dialback env.now), renews_refl _⟩
  · exact renewed_of_same rfl rfl rfl

theorem renewed_requestUnconfirmed (core : OverlayCore T) (confirmed : Option SocketAddr) (kind : CandidateKind)
    (candidate : Option SocketAddr) (probePort : Option UInt16) :
    Renewed env.now core (core.requestUnconfirmed env confirmed kind candidate probePort).1 := by
  unfold requestUnconfirmed requestDialback
  split
  · split
    · exact renewed_of_same rfl rfl rfl
    split
    · exact renewed_of_same rfl rfl rfl
    split
    · exact renewed_of_same rfl rfl rfl
    · exact renewed_rememberRequest env core _ kind _ probePort _
  · exact renewed_of_same rfl rfl rfl

theorem renewed_maybeRequestDialbackV6 (core : OverlayCore T) :
    Renewed env.now core (core.maybeRequestDialbackV6 env).1 := by
  unfold maybeRequestDialbackV6
  split
  · exact renewed_of_same rfl rfl rfl
  dsimp only
  split
  · exact renewed_of_same rfl rfl rfl
  unfold requestDialbackV6
  split
  · exact renewed_of_same rfl rfl rfl
  split
  · exact renewed_of_same rfl rfl rfl
  split
  · exact renewed_of_same rfl rfl rfl
  · have dropped : Renewed env.now core
        { core with confirmedV6 := dropStale core.confirmedV6 core.candidateV6 } := renewed_of_same rfl rfl rfl
    exact renewed_trans dropped (renewed_rememberRequest env _ _ .v6 _ none _)

theorem renewed_maybeRequestDialback (core : OverlayCore T) :
    Renewed env.now core (core.maybeRequestDialback env).1 := by
  unfold maybeRequestDialback
  split
  · exact renewed_of_same rfl rfl rfl
  · have dropped : ∀ observed portmapped, Renewed env.now core { core with
        confirmedDirect := dropStale core.confirmedDirect observed
        confirmedPortmap := dropStale core.confirmedPortmap portmapped } :=
      fun _ _ => renewed_of_same rfl rfl rfl
    exact renewed_trans (renewed_trans (renewed_trans (dropped _ _) (renewed_requestUnconfirmed env _ _ _ _ _))
      (renewed_requestUnconfirmed env _ _ _ _ _)) (renewed_maybeRequestDialbackV6 env _)

theorem renewed_serveDialback (core : OverlayCore T) (requester : Pubkey) (source : SocketAddr) (nonce : Nat)
    (probePort : Option UInt16) :
    Renewed env.now core (core.serveDialback env requester source nonce probePort).1 := by
  unfold serveDialback
  dsimp only
  split
  · exact renewed_of_same rfl rfl rfl
  split
  · exact renewed_of_same rfl rfl rfl
  split
  · exact renewed_of_same rfl rfl rfl
  split
  · exact ⟨rfl, renews_refl _, renews_insert _ _ (later_dialback env.now)⟩
  · exact renewed_of_same rfl rfl rfl

theorem renewed_handleFrame (core : OverlayCore T) (source : SocketAddr) (frame : OverlayFrame) :
    Renewed env.now core (core.handleFrame env source frame).1 := by
  cases frame with
  | addressObservation observed =>
    dsimp only [handleFrame, handleObservation]
    split
    · exact renewed_of_same rfl rfl rfl
    split
    · exact renewed_of_same rfl rfl rfl
    · exact renewed_of_same rfl rfl rfl
  | dialBackRequest nonce probePort =>
    dsimp only [handleFrame, handleDialbackRequest]
    split
    · exact renewed_of_same rfl rfl rfl
    · exact renewed_serveDialback env core _ source nonce probePort
  | dialBackResult nonce ok =>
    dsimp only [handleFrame, handleDialbackResult]
    split
    · exact renewed_of_same rfl rfl rfl
    split
    · split
      · exact ⟨rfl, renews_erase _ _, renews_refl _⟩
      · exact ⟨rfl, renews_erase _ _, renews_refl _⟩
      · exact ⟨rfl, renews_erase _ _, renews_refl _⟩
    · exact ⟨rfl, renews_erase _ _, renews_refl _⟩
  | other raw => exact renewed_of_same rfl rfl rfl

theorem renewed_probeEvent (core : OverlayCore T) (now : Instant) :
    Renewed now core (core.step .probeEvent).1 := by
  dsimp only [OverlayCore.step]
  split
  · unfold onProbeEvent
    split
    · exact renewed_of_same rfl rfl rfl
    · exact ⟨rfl, renews_refl _, renews_erase _ _⟩
  · exact renewed_of_same rfl rfl rfl

/-- Nothing is left that is due. -/
theorem later_expireDialbacks (core : OverlayCore T) (now : Instant) :
    (core.expireDialbacks now).1.nextAdvert = core.nextAdvert ∧
    Later now DialBackPending.deadline (core.expireDialbacks now).1.dialbackPending ∧
    Later now HelperProbe.deadline (core.expireDialbacks now).1.helperProbes := by
  dsimp only [expireDialbacks]
  have erases : ∀ (core : OverlayCore T) entry,
      (expireProbe core entry).1.helperProbes = core.helperProbes.erase entry.1 := fun _ _ => rfl
  have adverts : ∀ (core : OverlayCore T) entry, (expireProbe core entry).1.nextAdvert = core.nextAdvert :=
    fun _ _ => rfl
  have requests : ∀ (core : OverlayCore T) entry,
      (expireProbe core entry).1.dialbackPending = core.dialbackPending := fun _ _ => rfl
  refine ⟨?_, ?_, ?_⟩
  · rw [run_frame adverts]
  · rw [run_frame requests]
    exact later_filter (fun _ _ live => of_decide_eq_true live) _
  · exact later_sweep erases (fun entry live => Nat.not_le.mp (of_decide_eq_false live)) { core with
      dialbackPending := core.dialbackPending.filter (fun _ pending => now < pending.deadline) }

end OverlayCore

/-! ### Routing -/

namespace RoutingCore

variable {T : Type} [RoutingTransport T]

theorem renews_dialFor (core : RoutingCore T) (addr : SocketAddr) (expected : Pubkey)
    (payload : Option (RoutingTransport.Payload T)) {now deadline : Instant} (ahead : now < deadline)
    (dial : RoutingTransport.Dial T) :
    Renews now ConfirmDial.deadline core.confirming
      (core.dialFor addr expected payload deadline dial).1.confirming := by
  have either : ∀ sent : T × Bool, Renews now ConfirmDial.deadline core.confirming
      (if sent.2 then
        ({ core with transport := sent.1, confirming := core.confirming.insertIfNew addr ⟨expected, deadline⟩ }, true)
      else ({ core with transport := sent.1 }, false) : RoutingCore T × Bool).1.confirming := by
    intro sent
    split
    · exact renews_insertIfNew _ _ ahead
    · exact renews_refl _
  exact either _

theorem later_confirm (now : Instant) : now < now + confirmTimeout := Nat.lt_add_of_pos_right (by decide)

theorem renews_sendToPeer (core : RoutingCore T) (env : RoutingEnv T) (pubkey : Pubkey)
    (payload : RoutingTransport.Payload T) :
    Renews env.now ConfirmDial.deadline core.confirming (core.sendToPeer env pubkey payload).1.confirming := by
  unfold sendToPeer
  dsimp only
  split
  · exact renews_refl _
  · exact renews_refl _
  · exact renews_dialFor { core with gossip := (core.gossip.get pubkey env.now).1 } _ pubkey (some payload)
      (later_confirm env.now) env.dial
  · split
    · exact renews_refl _
    · exact renews_refl _

theorem renews_resolveConfirm (core : RoutingCore T) (addr : SocketAddr) (pubkey : Pubkey) (now : Instant) :
    Renews now ConfirmDial.deadline core.confirming (core.resolveConfirm addr pubkey).1.confirming := by
  unfold resolveConfirm
  dsimp only
  split
  · split
    · exact renews_erase _ _
    · exact renews_erase _ _
  · exact renews_erase _ _

theorem confirming_handleAdvert [AdvertSignature] (core : RoutingCore T) (source : SocketAddr)
    (signed : SignedPeerAdvert) (raw : RoutingTransport.Payload T) (now : Instant) :
    (core.handleAdvert source signed raw now).1.confirming = core.confirming := by
  unfold handleAdvert
  split
  · rfl
  · rfl

omit [RoutingTransport T] in
theorem later_expireConfirms (core : RoutingCore T) (now : Instant) :
    Later now ConfirmDial.deadline (core.expireConfirms now).1.confirming := by
  have erases : ∀ (core : RoutingCore T) entry,
      (expireConfirm core entry).1.confirming = core.confirming.erase entry.1 := fun _ _ => rfl
  exact later_sweep erases (fun entry live => Nat.not_le.mp (of_decide_eq_false live)) core

end RoutingCore

/-! ### Repair -/

namespace RepairCore

variable {T : Type} {core core' core'' : RepairCore T} {now : Instant}

structure Renewed (now : Instant) (core core' : RepairCore T) : Prop where
  outbound : Renews now OutboundRepair.deadline core.outboundRepairs core'.outboundRepairs
  inbound : Renews now InboundRepair.deadline core.inboundRepairs core'.inboundRepairs

theorem renewed_of_same (outbound : core'.outboundRepairs = core.outboundRepairs)
    (inbound : core'.inboundRepairs = core.inboundRepairs) : Renewed now core core' :=
  ⟨outbound ▸ renews_refl _, inbound ▸ renews_refl _⟩

theorem renewed_outbound (core : RepairCore T) (stream : OverlayStreamId)
    (outbound : core'.outboundRepairs = core.outboundRepairs.erase stream)
    (inbound : core'.inboundRepairs = core.inboundRepairs) : Renewed now core core' :=
  ⟨outbound ▸ renews_erase _ _, inbound ▸ renews_refl _⟩

theorem renewed_inbound (core : RepairCore T) (stream : OverlayStreamId)
    (outbound : core'.outboundRepairs = core.outboundRepairs)
    (inbound : core'.inboundRepairs = core.inboundRepairs.erase stream) : Renewed now core core' :=
  ⟨outbound ▸ renews_refl _, inbound ▸ renews_erase _ _⟩

theorem later_repair (now : Instant) : now < now + repairStreamTimeout := Nat.lt_add_of_pos_right (by decide)

variable [StreamTransport T]

theorem renewed_requestRepair (core : RepairCore T) (now : Instant) (peer : Pubkey) (request : RepairReq) :
    Renewed now core (core.requestRepair now peer request).1 := by
  unfold requestRepair
  split
  · exact renewed_of_same rfl rfl
  split
  · exact renewed_of_same rfl rfl
  · exact ⟨renews_insert _ _ (later_repair now), renews_refl _⟩

theorem renewed_onRepairResponse (core : RepairCore T) (stream : OverlayStreamId) (shred : Option (List UInt8))
    (now : Instant) : Renewed now core (core.onRepairResponse stream shred).1 := by
  unfold onRepairResponse
  split
  · exact renewed_of_same rfl rfl
  dsimp only
  split
  · exact renewed_inbound core stream rfl rfl
  split
  · exact renewed_inbound core stream rfl rfl
  · exact renewed_inbound core stream rfl rfl

theorem renewed_handleData (core : RepairCore T) (stream : OverlayStreamId) (bytes : List UInt8) (now : Instant) :
    Renewed now core (core.handleData stream bytes).1 := by
  unfold handleData
  split
  next repair found =>
    split
    · exact renewed_inbound core stream rfl rfl
    dsimp only
    split
    · exact renewed_inbound core stream rfl rfl
    · exact ⟨renews_refl _, renews_rewrite found (Nat.le_refl repair.deadline)⟩
  · split
    next repair found =>
      dsimp only
      split
      · exact renewed_outbound core stream rfl rfl
      · exact ⟨renews_rewrite found (Nat.le_refl repair.deadline), renews_refl _⟩
    · exact renewed_of_same rfl rfl

theorem renewed_handleFinished (core : RepairCore T) (now : Instant) (stream : OverlayStreamId) :
    Renewed now core (core.handleFinished now stream).1 := by
  unfold handleFinished
  split
  next repair found =>
    unfold finishInbound
    split
    · exact renewed_of_same rfl rfl
    split
    · exact renewed_inbound core stream rfl rfl
    dsimp only
    split
    · exact ⟨renews_refl _, renews_rewrite found (Nat.le_refl repair.deadline)⟩
    · exact renewed_inbound core stream rfl rfl
  · split
    · unfold finishOutbound
      dsimp only
      split
      · exact renewed_outbound core stream rfl rfl
      · exact renewed_outbound core stream rfl rfl
      · exact renewed_outbound core stream rfl rfl
    · exact renewed_of_same rfl rfl

omit [StreamTransport T] in
theorem renewed_handleFailed (core : RepairCore T) (stream : OverlayStreamId) (now : Instant) :
    Renewed now core (core.handleFailed stream).1 := by
  dsimp only [handleFailed]
  split
  · exact ⟨renews_erase _ _, renews_erase _ _⟩
  · exact renewed_inbound core stream rfl rfl

theorem renewed_poll (core : RepairCore T) (now : Instant) : Renewed now core (core.poll now).1 := by
  unfold poll
  split
  · exact renewed_of_same rfl rfl
  next transport event _ =>
    have renewed : Renewed now { core with transport := transport }
        ({ core with transport := transport }.handleStreamEvent now event).1 := by
      cases event with
      | opened stream peer =>
        dsimp only [handleStreamEvent, handleOpened]
        split
        · exact renewed_of_same rfl rfl
        · exact ⟨renews_refl _, renews_insert _ _ (later_repair now)⟩
      | data stream bytes => exact renewed_handleData _ stream bytes now
      | finished stream => exact renewed_handleFinished _ now stream
      | failed stream => exact renewed_handleFailed _ stream now
    exact ⟨renewed.outbound, renewed.inbound⟩

theorem later_expireRepairs (core : RepairCore T) (now : Instant) :
    Later now OutboundRepair.deadline (core.expireRepairs now).1.outboundRepairs ∧
    Later now InboundRepair.deadline (core.expireRepairs now).1.inboundRepairs := by
  have outbound : ∀ (core : RepairCore T) entry,
      (expireOutbound core entry).1.outboundRepairs = core.outboundRepairs.erase entry.1 := fun _ _ => rfl
  have inbound : ∀ (core : RepairCore T) entry,
      (expireInbound core entry).1.inboundRepairs = core.inboundRepairs.erase entry.1 := fun _ _ => rfl
  have apart : ∀ (core : RepairCore T) entry,
      (expireInbound core entry).1.outboundRepairs = core.outboundRepairs := fun _ _ => rfl
  dsimp only [expireRepairs]
  constructor
  · rw [run_frame (f := fun core : RepairCore T => core.outboundRepairs) apart]
    exact later_sweep (f := fun core : RepairCore T => core.outboundRepairs) outbound
      (fun entry live => Nat.not_le.mp (of_decide_eq_false live)) core
  · exact later_sweep (f := fun core : RepairCore T => core.inboundRepairs) inbound
      (fun entry live => Nat.not_le.mp (of_decide_eq_false live)) _

end RepairCore

end Lightbringer.Overlay
