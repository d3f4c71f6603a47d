import Lightbringer.Overlay.Transport

/-!
# Probe connections

Nothing but the probe operations and the network touches the probe connections. Their identities, once verified,
stay, and every reported outcome carries the identity verified for the probe it names.
-/

namespace Lightbringer.Overlay
open Std Machine

variable {ν : Type}

namespace OverlayQuicTransport

def probeSide (t : OverlayQuicTransport ν) : TreeMap ProbeId (ProbeConn ν) × List ProbeEvent × Nat :=
  (t.probes, t.probeEvents, t.nextProbe)

@[simp] theorem probeSide_setConnection (t : OverlayQuicTransport ν) (peer : SocketAddr) (c : QuicConnection ν) :
    (t.setConnection peer c).probeSide = t.probeSide := rfl

@[simp] theorem probeSide_pushStreamEvent (t : OverlayQuicTransport ν) (event : StreamEvent) :
    (t.pushStreamEvent event).probeSide = t.probeSide := rfl

@[simp] theorem probeSide_streamStates (t : OverlayQuicTransport ν) (states : TreeMap OverlayStreamId StreamState) :
    ({ t with streamStates := states } : OverlayQuicTransport ν).probeSide = t.probeSide := rfl

theorem probeSide_foldl {α : Type} {f : OverlayQuicTransport ν → α → OverlayQuicTransport ν}
    (each : ∀ t x, (f t x).probeSide = t.probeSide) (xs : List α) (t : OverlayQuicTransport ν) :
    (xs.foldl f t).probeSide = t.probeSide := by
  induction xs generalizing t with
  | nil => rfl
  | cons x rest ih => exact (ih _).trans (each t x)

theorem probeSide_failStreams (t : OverlayQuicTransport ν) (streams : List OverlayStreamId) :
    (t.failStreams streams).probeSide = t.probeSide := by
  refine probeSide_foldl (fun t stream => ?_) streams t
  split
  · rfl
  · rfl

theorem probeSide_removeConnection (t : OverlayQuicTransport ν) (peer : SocketAddr) :
    (t.removeConnection peer).probeSide = t.probeSide := by
  unfold removeConnection
  split
  · rfl
  · exact probeSide_failStreams _ _

theorem probeSide_acceptStream (t : OverlayQuicTransport ν) (peer : SocketAddr) (id : QuicStreamId) :
    (t.acceptStream peer id).probeSide = t.probeSide := by
  unfold acceptStream
  split
  · rfl
  split
  · rfl
  split
  · rfl
  · rfl

theorem probeSide_acceptStreams (t : OverlayQuicTransport ν) (peer : SocketAddr) :
    (t.acceptStreams peer).probeSide = t.probeSide := by
  unfold acceptStreams
  split
  · rfl
  · exact probeSide_foldl (fun t id => probeSide_acceptStream t peer id) _ _

theorem probeSide_reapStream (t : OverlayQuicTransport ν) (stream : OverlayStreamId) :
    (t.reapStream stream).probeSide = t.probeSide := by
  unfold reapStream
  split
  · rfl
  split
  · dsimp only
    split
    · rfl
    · rfl
  · rfl

theorem probeSide_readStream (t : OverlayQuicTransport ν) (peer : SocketAddr) (id : QuicStreamId) :
    (t.readStream peer id).probeSide = t.probeSide := by
  unfold readStream
  split
  · rfl
  split
  next stream conn bytes ending _ _ =>
    have pushed : (if bytes.isEmpty then t.setConnection peer { ‹QuicConnection ν› with conn := conn }
        else (t.setConnection peer { ‹QuicConnection ν› with conn := conn }).pushStreamEvent
          (.data stream bytes)).probeSide = t.probeSide := by
      split
      · rfl
      · rfl
    dsimp only
    split
    · exact pushed
    · exact (probeSide_reapStream _ _).trans pushed
  · rfl

theorem probeSide_failStream (t : OverlayQuicTransport ν) (peer : SocketAddr) (id : QuicStreamId) :
    (t.failStream peer id).probeSide = t.probeSide := by
  unfold failStream
  split
  · rfl
  split
  · rfl
  dsimp only
  split
  · rfl
  · rfl

theorem probeSide_flushStream (t : OverlayQuicTransport ν) (stream : OverlayStreamId) :
    (t.flushStream stream).probeSide = t.probeSide := by
  unfold flushStream
  split
  · rfl
  split
  · rfl
  dsimp only
  split
  · exact probeSide_reapStream _ _
  · rfl

theorem probeSide_handleStreamEvent (t : OverlayQuicTransport ν) (peer : SocketAddr) (event : QuinnStreamEvent) :
    (t.handleStreamEvent peer event).probeSide = t.probeSide := by
  unfold handleStreamEvent
  split
  · exact probeSide_acceptStreams t peer
  · rfl
  · exact probeSide_readStream t peer _
  · split
    · exact probeSide_flushStream t _
    · rfl
  · rfl
  · exact probeSide_failStream t peer _
  · rfl

theorem probeSide_handleConnectionEvent (t : OverlayQuicTransport ν) (peer : SocketAddr) (event : QuinnEvent) :
    (t.handleConnectionEvent peer event).1.probeSide = t.probeSide := by
  unfold handleConnectionEvent
  split
  · exact probeSide_handleStreamEvent t peer _
  split
  · rfl
  split
  · rfl
  · rfl
  · rfl
  · rfl
  · exact probeSide_removeConnection _ peer
  · rfl

theorem probeSide_drive (t : OverlayQuicTransport ν) : t.drive.1.probeSide = t.probeSide := by
  have start : ({ t with connections := t.connections.map (fun _ c => pumped c) } : OverlayQuicTransport ν).probeSide =
      t.probeSide := rfl
  exact @run_invariant _ _ _ handleAppEvent (fun _ _ => True) _ (fun current => current.probeSide = t.probeSide) start
    (fun current entry held _ => (probeSide_handleConnectionEvent current entry.1 entry.2).trans held)
    t.appEvents (meets_true _)

theorem probeSide_dialAnd (t : OverlayQuicTransport ν) (dest : SocketAddr) (socket : Option SocketId)
    (dialed : Option (ConnectionHandle × QuinnConn ν)) (f : QuicConnection ν → QuicConnection ν) :
    (t.dialAnd dest socket dialed f).1.probeSide = t.probeSide := by
  unfold dialAnd
  split
  · rfl
  next t' ensured =>
    have changed : (t'.withConnection dest f).probeSide = t'.probeSide := by
      unfold withConnection
      split
      · rfl
      · rfl
    have same : t'.probeSide = t.probeSide := by
      unfold ensureConnection at ensured
      split at ensured
      · cases ensured
        rfl
      split at ensured
      · cases ensured
      split at ensured
      · cases ensured
      split at ensured
      · cases ensured
      · cases ensured
        rfl
    exact (probeSide_drive _).trans (changed.trans same)

theorem probeSide_queueDatagramToPeer (t : OverlayQuicTransport ν) (pubkey : Pubkey) (payload : ν) :
    (t.queueDatagramToPeer pubkey payload).1.probeSide = t.probeSide := by
  unfold queueDatagramToPeer
  split
  · rfl
  split
  · rfl
  · exact probeSide_drive _

theorem probeSide_openStream (t : OverlayQuicTransport ν) (pubkey : Pubkey) :
    (t.openStream pubkey).probeSide = t.probeSide := by
  unfold openStream
  split
  · rfl
  split
  · rfl
  split
  · rfl
  · rfl

theorem probeSide_flushed (t : OverlayQuicTransport ν) (states : TreeMap OverlayStreamId StreamState)
    (stream : OverlayStreamId) :
    ({ t with streamStates := states }.flushStream stream).drive.1.probeSide = t.probeSide :=
  (probeSide_drive _).trans (probeSide_flushStream _ stream)

theorem probeSide_writeStream (t : OverlayQuicTransport ν) (stream : OverlayStreamId) (bytes : List UInt8) :
    (t.writeStream stream bytes).1.probeSide = t.probeSide := by
  unfold writeStream
  split
  · rfl
  split
  · rfl
  · exact probeSide_flushed t _ stream

theorem probeSide_finishStream (t : OverlayQuicTransport ν) (stream : OverlayStreamId) :
    (t.finishStream stream).1.probeSide = t.probeSide := by
  unfold finishStream
  split
  · rfl
  · exact probeSide_flushed t _ stream

theorem probeSide_resetStream (t : OverlayQuicTransport ν) (stream : OverlayStreamId) :
    (t.resetStream stream).1.probeSide = t.probeSide := by
  unfold resetStream
  split
  · rfl
  dsimp only
  split
  · rfl
  · exact probeSide_drive _

/-! ### Probes under the network -/

/-- The identity verified for a live probe, if any. -/
def probeIdentity (t : OverlayQuicTransport ν) (id : ProbeId) : Option (Option Pubkey) :=
  (t.probes[id]?).map (fun probe => probe.conn.identity)

/-- What may happen to the probes without the core asking for it. -/
structure Grows (t t' : OverlayQuicTransport ν) : Prop where
  next : t'.nextProbe = t.nextProbe
  same : ∀ id, (t'.probeIdentity id).isSome = (t.probeIdentity id).isSome
  keeps : ∀ id x, t.probeIdentity id = some (some x) → t'.probeIdentity id = some (some x)
  reports : ∀ event ∈ t'.probeEvents, event ∈ t.probeEvents ∨
    (t'.probeIdentity event.probe).isSome ∧ ∀ x, event.identity = some x → t'.probeIdentity event.probe = some (some x)

variable {t t' t'' : OverlayQuicTransport ν}

theorem Grows.refl (t : OverlayQuicTransport ν) : Grows t t :=
  ⟨rfl, fun _ => rfl, fun _ _ known => known, fun _ member => .inl member⟩

theorem Grows.trans (first : Grows t t') (second : Grows t' t'') : Grows t t'' where
  next := second.next.trans first.next
  same id := (second.same id).trans (first.same id)
  keeps id x known := second.keeps id x (first.keeps id x known)
  reports event member := by
    rcases second.reports event member with earlier | late
    · rcases first.reports event earlier with old | ⟨present, vouched⟩
      · exact .inl old
      · exact .inr ⟨(second.same _).trans present, fun x known => second.keeps _ x (vouched x known)⟩
    · exact .inr late

theorem grows_of_probeSide (same : t'.probeSide = t.probeSide) : Grows t t' := by
  obtain ⟨probes, rest⟩ := Prod.mk.inj same
  obtain ⟨events, next⟩ := Prod.mk.inj rest
  have identities : ∀ id, t'.probeIdentity id = t.probeIdentity id := fun id => by rw [probeIdentity, probes]; rfl
  refine ⟨next, fun id => by rw [identities], fun id x known => (identities id).trans known, fun event member => ?_⟩
  rw [events] at member
  exact .inl member

theorem grows_foldl {α : Type} {f : OverlayQuicTransport ν → α → OverlayQuicTransport ν}
    (each : ∀ t x, Grows t (f t x)) (xs : List α) (t : OverlayQuicTransport ν) : Grows t (xs.foldl f t) := by
  induction xs generalizing t with
  | nil => exact .refl t
  | cons x rest ih => exact (each t x).trans (ih _)

/-- The same probes, knowing at least as much. -/
def Informed (probes probes' : TreeMap ProbeId (ProbeConn ν)) : Prop :=
  ∀ id : ProbeId, (probes'[id]?).isSome = (probes[id]?).isSome ∧
    ∀ conn conn' : ProbeConn ν, probes[id]? = some conn → probes'[id]? = some conn' →
      ∀ x, conn.conn.identity = some x → conn'.conn.identity = some x

theorem informed_refl (probes : TreeMap ProbeId (ProbeConn ν)) : Informed probes probes := by
  refine fun id => ⟨rfl, fun conn conn' before after x known => ?_⟩
  rw [before] at after
  cases after
  exact known

theorem informed_trans {first second third : TreeMap ProbeId (ProbeConn ν)} (early : Informed first second)
    (late : Informed second third) : Informed first third := by
  refine fun id => ⟨(late id).1.trans (early id).1, fun conn conn'' before after x known => ?_⟩
  have between : (second[id]?).isSome := by rw [(early id).1, before]; rfl
  obtain ⟨conn', middle⟩ := Option.isSome_iff_exists.mp between
  exact (late id).2 conn' conn'' middle after x ((early id).2 conn conn' before middle x known)

theorem informed_of_map {probes probes' : TreeMap ProbeId (ProbeConn ν)} {f : ProbeId → ProbeConn ν → ProbeConn ν}
    (kept : ∀ id conn x, conn.conn.identity = some x → (f id conn).conn.identity = some x)
    (mapped : ∀ id : ProbeId, probes'[id]? = (probes[id]?).map (f id) ∨ probes'[id]? = probes[id]?) :
    Informed probes probes' := by
  intro id
  rcases mapped id with changed | unchanged
  · refine ⟨by rw [changed, Option.isSome_map], fun conn conn' before after x known => ?_⟩
    rw [changed, before] at after
    cases after
    exact kept id conn x known
  · refine ⟨by rw [unchanged], fun conn conn' before after x known => ?_⟩
    rw [unchanged, before] at after
    cases after
    exact known

theorem grows_of_informed {probes : TreeMap ProbeId (ProbeConn ν)} (informed : Informed t.probes probes) :
    Grows t { t with probes := probes } where
  next := rfl
  same id := by
    unfold probeIdentity
    rw [Option.isSome_map, Option.isSome_map]
    exact (informed id).1
  keeps id x known := by
    unfold probeIdentity at known ⊢
    obtain ⟨conn, before, verified⟩ := Option.map_eq_some_iff.mp known
    have present : (probes[id]?).isSome := by rw [(informed id).1, before]; rfl
    obtain ⟨conn', after⟩ := Option.isSome_iff_exists.mp present
    exact Option.map_eq_some_iff.mpr ⟨conn', after, (informed id).2 conn conn' before after x verified⟩
  reports event member := .inl member

theorem grows_insert {id : ProbeId} {conn : ProbeConn ν} (found : t.probes[id]? = some conn) (conn' : ProbeConn ν)
    (kept : ∀ x, conn.conn.identity = some x → conn'.conn.identity = some x) :
    Grows t { t with probes := t.probes.insert id conn' } := by
  refine grows_of_informed (fun other => ?_)
  rw [TreeMap.getElem?_insert]
  split
  next here =>
    rw [← LawfulEqOrd.compare_eq_iff_eq.mp here, found]
    refine ⟨rfl, fun before after old new x known => ?_⟩
    cases old
    cases new
    exact kept x known
  next => exact informed_refl t.probes other

theorem grows_report {id : ProbeId} {identity verified : Option Pubkey} (found : t.probeIdentity id = some verified)
    (vouched : ∀ x, identity = some x → verified = some x) (addr : SocketAddr) :
    Grows t { t with probeEvents := pushBounded t.probeEvents ⟨id, addr, identity⟩ maxProbeEvents } where
  next := rfl
  same _ := rfl
  keeps _ _ known := known
  reports event member := by
    rcases mem_pushBounded member with old | rfl
    · exact .inl old
    · exact .inr ⟨Option.isSome_iff_exists.mpr ⟨_, found⟩, fun x known => found.trans (congrArg some (vouched x known))⟩

theorem grows_handleProbeEvent (t : OverlayQuicTransport ν) (id : ProbeId) (event : QuinnEvent) :
    Grows t (t.handleProbeEvent id event) := by
  unfold handleProbeEvent
  cases found : t.probes[id]? with
  | none => exact .refl t
  | some conn =>
    have resolved := grows_insert found { conn with resolved := true } (fun _ known => known)
    have known : ({ t with probes := t.probes.insert id { conn with resolved := true } } :
        OverlayQuicTransport ν).probeIdentity id = some conn.conn.identity := by simp [probeIdentity]
    dsimp only
    split
    · split
      · exact .refl t
      · exact resolved.trans (grows_report known (fun _ known => known) conn.remote)
    · split
      · exact .refl t
      · exact resolved.trans (grows_report known (fun _ known => by cases known) conn.remote)
    · exact grows_insert found _ (fun _ known => known)
    · exact .refl t

theorem grows_driveProbes (t : OverlayQuicTransport ν) : Grows t t.driveProbes := by
  have quieted : Informed t.probes (t.probes.map (fun _ conn =>
      { conn with conn := { conn.conn with events := [] } })) := by
    refine informed_of_map (f := fun _ conn => { conn with conn := { conn.conn with events := [] } })
      (fun _ _ _ known => known) (fun id => .inl ?_)
    rw [TreeMap.getElem?_map]
  have each : ∀ t (entry : ProbeId × QuinnEvent), Grows (ν := ν) t (t.handleProbeEvent entry.1 entry.2) :=
    fun t entry => grows_handleProbeEvent t entry.1 entry.2
  exact (grows_of_informed quieted).trans (grows_foldl each _ _)

theorem evolve_identity {conn next : QuinnConn ν} {x : Pubkey} (known : conn.identity = some x) :
    (conn.evolve next).identity = some x := by
  simp [QuinnConn.evolve, known]

theorem grows_handleConnectionEventForHandle (t : OverlayQuicTransport ν) (handle : ConnectionHandle)
    (next : QuinnConn ν) : Grows t (t.handleConnectionEventForHandle handle next) := by
  unfold handleConnectionEventForHandle
  split
  · split
    · exact grows_of_probeSide rfl
    · exact .refl t
  · split
    next id conn located =>
      obtain ⟨named, _, mapped⟩ := Option.bind_eq_some_iff.mp located
      obtain ⟨_, found, pair⟩ := Option.map_eq_some_iff.mp mapped
      cases pair
      exact grows_insert found _ (fun _ known => evolve_identity known)
    next => exact .refl t

theorem grows_handleDatagramEvent (t : OverlayQuicTransport ν) (event : DatagramEvent ν) :
    Grows t (t.handleDatagramEvent event) := by
  unfold handleDatagramEvent
  split
  · exact grows_handleConnectionEventForHandle t _ _
  · split
    · exact .refl t
    split
    · exact .refl t
    · exact grows_of_probeSide rfl
  · exact .refl t

theorem informed_modify (probes : TreeMap ProbeId (ProbeConn ν)) (probe : ProbeId) (next : QuinnConn ν) :
    Informed probes (probes.modify probe (fun conn => { conn with conn := conn.conn.evolve next })) := by
  refine informed_of_map (f := fun _ conn => { conn with conn := conn.conn.evolve next })
    (fun _ _ _ known => evolve_identity known) (fun id => ?_)
  rw [TreeMap.getElem?_modify]
  split
  next here =>
    rw [LawfulEqOrd.compare_eq_iff_eq.mp here]
    exact .inl rfl
  next => exact .inr rfl

theorem grows_handleTimeouts (t : OverlayQuicTransport ν) (due : List (SocketAddr × QuinnConn ν))
    (dueProbes : List (ProbeId × QuinnConn ν)) : Grows t (t.handleTimeouts due dueProbes) := by
  have informed : Informed t.probes (t.handleTimeouts due dueProbes).probes :=
    List.foldlRecOn dueProbes _ (informed_refl t.probes)
      (fun probes held entry _ => informed_trans held (informed_modify probes entry.1 entry.2))
  have grown := grows_of_informed informed
  exact ⟨grown.next, grown.same, grown.keeps, grown.reports⟩

theorem grows_step (t : OverlayQuicTransport ν) {op : Op ν} (other : op.ofProbes = false) : Grows t (t.step op).1 := by
  cases op with
  | queueDatagram dest payload dialed => exact grows_of_probeSide (probeSide_dialAnd t dest none dialed _)
  | queueDatagramToPeer pubkey payload => exact grows_of_probeSide (probeSide_queueDatagramToPeer t pubkey payload)
  | queueDatagramExpecting dest expected payload dialed =>
    exact grows_of_probeSide (probeSide_dialAnd t dest none dialed _)
  | dialExpecting dest expected dialed => exact grows_of_probeSide (probeSide_dialAnd t dest none dialed _)
  | dialExpectingFrom socket dest expected dialed =>
    exact grows_of_probeSide (probeSide_dialAnd t dest (some socket) dialed _)
  | dropConnection addr => exact grows_of_probeSide (probeSide_removeConnection t addr)
  | onDatagram event =>
    exact ((grows_handleDatagramEvent t event).trans (grows_of_probeSide (probeSide_drive _))).trans
      (grows_driveProbes _)
  | onTimer due dueProbes =>
    exact ((grows_handleTimeouts t due dueProbes).trans (grows_of_probeSide (probeSide_drive _))).trans
      (grows_driveProbes _)
  | openStream pubkey => exact grows_of_probeSide (probeSide_openStream t pubkey)
  | writeStream stream bytes => exact grows_of_probeSide (probeSide_writeStream t stream bytes)
  | finishStream stream => exact grows_of_probeSide (probeSide_finishStream t stream)
  | resetStream stream => exact grows_of_probeSide (probeSide_resetStream t stream)
  | startProbe | closeProbe | pollProbeEvent => cases other
  | registerPunchSocket | unregisterPunchSocket | pollInbound | pollEvent | pollStreamEvent =>
    exact grows_of_probeSide rfl

/-! ### Reported identities -/

/-- Probe ids are not reused, and a reported identity is the one verified for the probe, as long as it lives. -/
structure Truthful (t : OverlayQuicTransport ν) : Prop where
  fresh : ∀ id, (t.probeIdentity id).isSome → id < t.nextProbe
  past : ∀ event ∈ t.probeEvents, event.probe < t.nextProbe
  verified : ∀ event ∈ t.probeEvents, ∀ x, event.identity = some x → (t.probeIdentity event.probe).isSome →
    t.probeIdentity event.probe = some (some x)

theorem truthful_new (socket : SocketId) (socketV6 : Option SocketId) :
    (OverlayQuicTransport.new (ν := ν) socket socketV6).Truthful where
  fresh id live := by simp [probeIdentity, OverlayQuicTransport.new] at live
  past event member := by cases member
  verified event member := by cases member

theorem Truthful.grows (held : t.Truthful) (grown : Grows t t') : t'.Truthful where
  fresh id live := by
    rw [grown.next]
    exact held.fresh id ((grown.same id).symm.trans live)
  past event member := by
    rw [grown.next]
    rcases grown.reports event member with old | ⟨live, _⟩
    · exact held.past event old
    · exact held.fresh _ ((grown.same _).symm.trans live)
  verified event member x known live := by
    rcases grown.reports event member with old | ⟨_, vouched⟩
    · exact grown.keeps _ x (held.verified event old x known ((grown.same _).symm.trans live))
    · exact vouched x known

theorem probeIdentity_start (t : OverlayQuicTransport ν) (conn : ProbeConn ν) (id : ProbeId) :
    ({ t with probes := t.probes.insert t.nextProbe conn, nextProbe := t.nextProbe + 1 } :
      OverlayQuicTransport ν).probeIdentity id =
      if id = t.nextProbe then some conn.conn.identity else t.probeIdentity id := by
  unfold probeIdentity
  rw [TreeMap.getElem?_insert]
  by_cases here : id = t.nextProbe
  · simp [here]
  · rw [if_neg (fun same => here (LawfulEqOrd.compare_eq_iff_eq.mp same).symm), if_neg here]

theorem truthful_started (held : t.Truthful) (conn : ProbeConn ν) :
    ({ t with probes := t.probes.insert t.nextProbe conn, nextProbe := t.nextProbe + 1 } :
      OverlayQuicTransport ν).Truthful where
  fresh id live := by
    rw [probeIdentity_start] at live
    split at live
    next here => exact here ▸ Nat.lt_succ_self _
    next => exact Nat.lt_succ_of_lt (held.fresh id live)
  past event member := Nat.lt_succ_of_lt (held.past event member)
  verified event member x known live := by
    have older := Nat.ne_of_lt (held.past event member)
    rw [probeIdentity_start, if_neg older] at live ⊢
    exact held.verified event member x known live

/-- A probe that starts gets the next id and lives; one that does not start leaves no trace. -/
theorem startProbe_spec (held : t.Truthful) (socket : SocketId) (addr : SocketAddr)
    (dialed : Option (ConnectionHandle × QuinnConn ν)) :
    t.startProbe socket addr dialed = (t, none) ∨
    ∃ started, t.startProbe socket addr dialed = (started, some t.nextProbe) ∧ started.Truthful ∧
      ∀ id, id = t.nextProbe ∨ (t.probeIdentity id).isSome → (started.probeIdentity id).isSome := by
  unfold startProbe
  split
  · exact .inl rfl
  split
  · exact .inl rfl
  next handle conn =>
    refine .inr ⟨_, rfl, ?_⟩
    have begun := truthful_started held ⟨handle, conn, socket, addr, false⟩
    have inserted : OverlayQuicTransport.Truthful { t with
        probes := t.probes.insert t.nextProbe ⟨handle, conn, socket, addr, false⟩
        probeHandles := t.probeHandles.insert handle t.nextProbe
        probeSockets := t.probeSockets.insert socket ()
        nextProbe := t.nextProbe + 1 } := ⟨begun.fresh, begun.past, begun.verified⟩
    refine ⟨inserted.grows (grows_driveProbes _), fun id live => ?_⟩
    rw [(grows_driveProbes _).same id]
    have known := probeIdentity_start t ⟨handle, conn, socket, addr, false⟩ id
    by_cases here : id = t.nextProbe
    · rw [if_pos here] at known
      exact Option.isSome_iff_exists.mpr ⟨_, known⟩
    · rw [if_neg here] at known
      rcases live with same | old
      · exact absurd same here
      · exact (congrArg Option.isSome known).trans old

theorem probeIdentity_closeProbe (t : OverlayQuicTransport ν) (probe id : ProbeId) :
    (t.closeProbe probe).probeIdentity id = if id = probe then none else t.probeIdentity id := by
  unfold closeProbe
  split
  next missing =>
    by_cases here : id = probe
    · rw [if_pos here, here, probeIdentity, missing]
      rfl
    · rw [if_neg here]
  next =>
    unfold probeIdentity
    rw [TreeMap.getElem?_erase]
    by_cases here : id = probe
    · simp [here]
    · rw [if_neg (fun same => here (LawfulEqOrd.compare_eq_iff_eq.mp same).symm), if_neg here]

theorem closeProbe_events (t : OverlayQuicTransport ν) (probe : ProbeId) :
    (t.closeProbe probe).probeEvents = t.probeEvents ∧ (t.closeProbe probe).nextProbe = t.nextProbe := by
  unfold closeProbe
  split
  · exact ⟨rfl, rfl⟩
  · exact ⟨rfl, rfl⟩

theorem truthful_closeProbe (held : t.Truthful) (probe : ProbeId) : (t.closeProbe probe).Truthful := by
  obtain ⟨events, next⟩ := closeProbe_events t probe
  refine ⟨fun id live => ?_, fun event member => ?_, fun event member x known live => ?_⟩
  · rw [probeIdentity_closeProbe] at live
    split at live
    · cases live
    · rw [next]
      exact held.fresh id live
  · rw [next]
    exact held.past event (events ▸ member)
  · rw [probeIdentity_closeProbe] at live ⊢
    split at live
    · cases live
    next other =>
      rw [if_neg other]
      exact held.verified event (events ▸ member) x known live

theorem truthful_pollProbeEvent (held : t.Truthful) :
    ({ t with probeEvents := t.probeEvents.tail } : OverlayQuicTransport ν).Truthful :=
  ⟨held.fresh, fun event member => held.past event (List.mem_of_mem_tail member),
    fun event member => held.verified event (List.mem_of_mem_tail member)⟩

end OverlayQuicTransport

end Lightbringer.Overlay
