import Lightbringer.Overlay.Sim.WorldOrder

/-!
# What the simulated world does

Between two inputs of a test the world does six things: it writes what a host computed, tells an event that is not one
of the wire, wakes a host, lets a gateway answer, screens a datagram, and sends one. What all six keep, with the clock
and a host that joins, every run keeps.
-/

namespace Lightbringer.Overlay.Sim
open Machine PortMap

variable {N G R : Type}

/-- What happens between hosts is told by the world, not by a node. -/
def TraceEvent.onWire : TraceEvent → Bool
  | .hostSend .. | .linkDropped .. | .linkDuplicated .. => true
  | _ => false

def EventKind.isDelivery : EventKind → Bool
  | .delivery .. => true
  | _ => false

def TraceEvent.isSent : TraceEvent → Bool
  | .hostSend .. => true
  | _ => false

theorem TraceEvent.isSent_of_onWire {event : TraceEvent} (off : event.onWire = false) : event.isSent = false := by
  cases event with
  | hostSend => cases off
  | _ => rfl

/-- What the network has of a host: its NATs and its IPv6 side, where no gateway programs them, and its counters. -/
structure HostNet (R : Type) where
  own : Option (List (NatBox R) × Option HostV6)
  sentDatagrams : Nat
  sentBytes : Nat

def HostNet.counted (net : HostNet R) (bytes : Nat) : HostNet R :=
  { net with sentDatagrams := net.sentDatagrams + 1, sentBytes := net.sentBytes + bytes }

def Host.net (host : Host N G R) : HostNet R where
  own := match host.gateway with
    | none => some (host.natChain, host.v6)
    | some _ => none
  sentDatagrams := host.sentDatagrams
  sentBytes := host.sentBytes

theorem Host.own_of_gateway {host : Host N G R} (gateway : host.gateway.isSome = true) : host.net.own = none := by
  obtain ⟨gateway, present⟩ := Option.isSome_iff_exists.mp gateway
  rw [net, present]

theorem Host.own_of_none {host : Host N G R} (alone : host.gateway = none) :
    host.net.own = some (host.natChain, host.v6) := by
  rw [net, alone]

theorem Host.alone_of_own {host : Host N G R} {own : List (NatBox R) × Option HostV6} (held : host.net.own = some own) :
    host.gateway = none := by
  cases gateway : host.gateway with
  | none => rfl
  | some _ =>
    rw [own_of_gateway (by rw [gateway]; rfl)] at held
    cases held

/-- A gateway works on the NAT and the firewall of its host. -/
theorem Host.net_programmed {host host' : Host N G R} (before : host.gateway.isSome = true)
    (after : host'.gateway.isSome = true) (datagrams : host'.sentDatagrams = host.sentDatagrams)
    (bytes : host'.sentBytes = host.sentBytes) : host'.net = host.net := by
  have own : host'.net.own = host.net.own := (own_of_gateway after).trans (own_of_gateway before).symm
  calc host'.net = ⟨host'.net.own, host'.sentDatagrams, host'.sentBytes⟩ := rfl
    _ = host.net := by rw [own, datagrams, bytes]; rfl

theorem Host.alone_of_net {host host' : Host N G R} (same : host'.net = host.net) (alone : host.gateway = none) :
    host'.gateway = none :=
  alone_of_own (own_of_none alone ▸ congrArg HostNet.own same)

/-- The events a node reports are not those of the wire. -/
def Reports (ops : NodeOps N) : Prop :=
  ∀ id node, ∀ event ∈ (ops.pollEvents id node).2.1, event.onWire = false

namespace SimWorld

inductive Act [SimRng R] (world : SimWorld N G R) : SimWorld N G R → Prop
  | wrote {id : HostId} {host host' : Host N G R} (found : world.hosts[id]? = some host) (same : host'.net = host.net) :
      Act world (world.setHost id host')
  | told {event : TraceEvent} (off : event.onWire = false) : Act world (world.record event)
  | woke {due : UInt64} {kind : EventKind} (other : kind.isDelivery = false) : Act world (world.pushEvent due kind)
  | answered {id : HostId} {host : Host N G R} {due : UInt64} {src dst : SocketAddr} {payload : List UInt8}
      (found : world.hosts[id]? = some host) (gateway : host.gateway.isSome = true) :
      Act world (world.pushEvent due (.delivery id src dst payload none))
  | screened {id : HostId} {host : Host N G R} (src dst : SocketAddr) (found : world.hosts[id]? = some host) :
      Act world (world.setHost id (screen world.agenda.now id src dst host).1)
  | sent {id : HostId} {host : Host N G R} (source dest : SocketAddr) (payload : List UInt8)
      (found : world.hosts[id]? = some host) : Act world (routeOut id source dest payload host world)

/-- Time stands still, nothing changes that the network has of a host, and nothing is sent. -/
structure Quiet (world world' : SimWorld N G R) : Prop where
  now : world'.agenda.now = world.agenda.now
  nets : world'.hosts.map Host.net = world.hosts.map Host.net
  sends : world'.trace.filter (·.2.isSent) = world.trace.filter (·.2.isSent)

section
variable {world world' world'' : SimWorld N G R} {id : HostId} {host host' : Host N G R}

theorem Quiet.refl (world : SimWorld N G R) : Quiet world world := ⟨rfl, rfl, rfl⟩

theorem Quiet.trans (one : Quiet world world') (two : Quiet world' world'') : Quiet world world'' :=
  ⟨two.now.trans one.now, two.nets.trans one.nets, two.sends.trans one.sends⟩

theorem quiet_record {event : TraceEvent} (other : event.isSent = false) : Quiet world (world.record event) := by
  refine ⟨rfl, rfl, ?_⟩
  show (world.trace ++ [(world.agenda.now, event)]).filter _ = _
  rw [List.filter_append, List.filter_singleton, other]
  exact List.append_nil _

theorem quiet_foldl_record {events : List TraceEvent} (others : ∀ event ∈ events, event.onWire = false)
    (world : SimWorld N G R) : Quiet world (events.foldl record world) :=
  List.foldlRecOn (motive := fun reached => Quiet world reached) events record (.refl world)
    (fun _ quiet event member => quiet.trans (quiet_record (TraceEvent.isSent_of_onWire (others event member))))

theorem quiet_pushEvent {due : UInt64} {kind : EventKind} : Quiet world (world.pushEvent due kind) := ⟨rfl, rfl, rfl⟩

theorem quiet_withRng (rng : R) : Quiet world (world.withRng rng) := ⟨rfl, rfl, rfl⟩

theorem nets_setHost (found : world.hosts[id]? = some host) (other : HostId) :
    ((world.setHost id host').hosts.map Host.net)[other]? =
      if id = other then some host'.net else (world.hosts.map Host.net)[other]? := by
  show ((world.hosts.set id host').map Host.net)[other]? = _
  rw [List.getElem?_map, List.getElem?_map, List.getElem?_set]
  split
  next equal =>
    rw [if_pos (equal ▸ (List.getElem?_eq_some_iff.mp found).1)]
    rfl
  next => rfl

theorem nets_countSent {bytes : Nat} (other : HostId) : ((world.countSent id bytes).hosts.map Host.net)[other]? =
    (world.hosts.map Host.net)[other]?.map (fun net => if id = other then net.counted bytes else net) := by
  show ((world.hosts.modify id _).map Host.net)[other]? = _
  rw [List.getElem?_map, List.getElem?_map, List.getElem?_modify]
  cases world.hosts[other]? with
  | none => rfl
  | some host =>
    by_cases same : id = other
    · simp only [same, if_true, Option.map_some, Option.map_eq_map]
      rfl
    · simp only [same, if_false, Option.map_some, Option.map_eq_map]

theorem quiet_setHost (found : world.hosts[id]? = some host) (same : host'.net = host.net) :
    Quiet world (world.setHost id host') := by
  refine ⟨rfl, List.ext_getElem? (fun other => ?_), rfl⟩
  rw [nets_setHost found]
  split
  next equal => rw [same, ← equal, List.getElem?_map, found, Option.map_some]
  next => rfl

theorem Quiet.length (quiet : Quiet world world') : world'.hosts.length = world.hosts.length := by
  have same := congrArg List.length quiet.nets
  rwa [List.length_map, List.length_map] at same

theorem Quiet.mem_sent (quiet : Quiet world world') {entry : UInt64 × TraceEvent} (sent : entry.2.isSent = true)
    (member : entry ∈ world'.trace) : entry ∈ world.trace := by
  have kept : entry ∈ world'.trace.filter (·.2.isSent) := List.mem_filter.mpr ⟨member, sent⟩
  rw [quiet.sends] at kept
  exact (List.mem_filter.mp kept).1

end

def Acts [SimRng R] : SimWorld N G R → SimWorld N G R → Prop := Relation.ReflTransGen Act

section
variable [SimRng R] {world world' world'' : SimWorld N G R} {id : HostId} {host host' : Host N G R}

theorem Acts.refl (world : SimWorld N G R) : Acts world world := Relation.ReflTransGen.refl

theorem Acts.trans (one : Acts world world') (two : Acts world' world'') : Acts world world'' :=
  Relation.ReflTransGen.trans one two

theorem Act.one (act : Act world world') : Acts world world' := Relation.ReflTransGen.single act

/-- All but two acts are quiet. -/
theorem Act.cases (act : Act world world') : Quiet world world' ∨
    (∃ id host src dst, world.hosts[id]? = some host ∧
      world' = world.setHost id (screen world.agenda.now id src dst host).1) ∨
    ∃ id host source dest payload, world.hosts[id]? = some host ∧
      world' = routeOut id source dest payload host world := by
  cases act with
  | wrote found same => exact .inl (quiet_setHost found same)
  | told off => exact .inl (quiet_record (TraceEvent.isSent_of_onWire off))
  | woke => exact .inl quiet_pushEvent
  | answered => exact .inl quiet_pushEvent
  | screened src dst found => exact .inr (.inl ⟨_, _, src, dst, found, rfl⟩)
  | sent source dest payload found => exact .inr (.inr ⟨_, _, source, dest, payload, found, rfl⟩)

/-- What each act keeps, a row of them keeps. -/
theorem Acts.keep {P : SimWorld N G R → Prop} (acts : Acts world world')
    (each : ∀ world world', P world → Act world world' → P world') (start : P world) : P world' := by
  induction acts with
  | refl => exact start
  | tail _ act ih => exact each _ _ ih act

theorem acts_foldl {β : Type} {f : SimWorld N G R → β → SimWorld N G R} {items : List β}
    (each : ∀ item ∈ items, ∀ world, Acts world (f world item)) (world : SimWorld N G R) :
    Acts world (items.foldl f world) :=
  List.foldlRecOn (motive := fun reached => Acts world reached) items f (.refl world)
    (fun reached acts item member => acts.trans (each item member reached))

theorem acts_record {event : TraceEvent} (off : event.onWire = false) : Acts world (world.record event) :=
  (Act.told off).one

theorem acts_foldl_record {events : List TraceEvent} (others : ∀ event ∈ events, event.onWire = false)
    (world : SimWorld N G R) : Acts world (events.foldl record world) :=
  acts_foldl (fun event member _ => acts_record (others event member)) world

theorem acts_setHost (found : world.hosts[id]? = some host) (same : host'.net = host.net) :
    Acts world (world.setHost id host') := (Act.wrote found same).one

theorem acts_pushEvent {due : UInt64} {kind : EventKind} (other : kind.isDelivery = false) :
    Acts world (world.pushEvent due kind) := (Act.woke other).one

theorem acts_withHost {f : Instant → N → EnvProg N} : Acts world (world.withHost id f) := by
  unfold withHost
  split
  · exact .refl world
  next host found =>
    split
    · exact .refl world
    next node _ =>
      generalize (f world.virtualNow node).run host.env = ran
      obtain ⟨node', env⟩ := ran
      exact acts_setHost found (by rfl)

/-! ### Out of a host -/

theorem carry_cases (link : Link) (params : LinkParams) (src dest : SocketAddr) (payload : List UInt8)
    (world : SimWorld N G R) : ∃ rng horizon due via, carry link params src dest payload world =
      { world.withRng rng with linkHorizon := horizon }.pushEvent due (.delivery link.owner src dest payload via) := by
  unfold carry
  dsimp only
  generalize (if asNanos params.delayMin < asNanos params.delayMax then
    SimRng.randomDelay world.rng (asNanos params.delayMin) (asNanos params.delayMax)
    else (asNanos params.delayMin, world.rng)) = draw
  obtain ⟨delay, rng⟩ := draw
  generalize (if 0 < params.reorderProbability then SimRng.randomBool rng params.reorderProbability
    else (false, rng)) = reorder
  obtain ⟨reordered, rng⟩ := reorder
  dsimp only
  split
  · exact ⟨rng, world.linkHorizon, _, none, rfl⟩
  · exact ⟨rng, _, _, some link, rfl⟩

/-- A datagram is lost on a link, carried twice, or carried. -/
theorem cross_cases (link : Link) (params : LinkParams) (src dest : SocketAddr) (payload : List UInt8)
    (world : SimWorld N G R) : ∃ rng,
      cross link params src dest payload world =
        (world.withRng rng).record (.linkDropped link.sender link.owner payload.length) ∨
      cross link params src dest payload world = carry link params src dest payload (carry link params src dest payload
        ((world.withRng rng).record (.linkDuplicated link.sender link.owner))) ∨
      cross link params src dest payload world = carry link params src dest payload (world.withRng rng) := by
  unfold cross
  dsimp only
  generalize SimRng.randomBool world.rng params.dropProbability = drop
  obtain ⟨dropped, rng⟩ := drop
  dsimp only
  split
  · exact ⟨rng, .inl rfl⟩
  · generalize (if 0 < params.duplicateProbability then SimRng.randomBool (world.withRng rng).rng
      params.duplicateProbability else (false, (world.withRng rng).rng)) = duplicate
    obtain ⟨duplicated, rng'⟩ := duplicate
    dsimp only
    split
    · exact ⟨rng', .inr (.inl rfl)⟩
    · exact ⟨rng', .inr (.inr rfl)⟩

theorem quiet_carry (link : Link) (params : LinkParams) (src dest : SocketAddr) (payload : List UInt8)
    (world : SimWorld N G R) : Quiet world (carry link params src dest payload world) := by
  obtain ⟨rng, horizon, due, via, carried⟩ := carry_cases link params src dest payload world
  rw [carried]
  exact ⟨rfl, rfl, rfl⟩

theorem quiet_cross (link : Link) (params : LinkParams) (src dest : SocketAddr) (payload : List UInt8)
    (world : SimWorld N G R) : Quiet world (cross link params src dest payload world) := by
  obtain ⟨rng, lost | twice | once⟩ := cross_cases link params src dest payload world
  · rw [lost]
    exact (quiet_withRng rng).trans (quiet_record rfl)
  · rw [twice]
    exact ((quiet_withRng rng).trans (quiet_record (by rfl))).trans ((quiet_carry ..).trans (quiet_carry ..))
  · rw [once]
    exact (quiet_withRng rng).trans (quiet_carry ..)

/-- A datagram is not sent, or sent and counted, and what becomes of it is not up to the sender. -/
theorem transmit_cases (id : HostId) (src dest : SocketAddr) (payload : List UInt8) (world : SimWorld N G R) :
    Quiet world (transmit id src dest payload world) ∨
      Quiet ((world.record (.hostSend id src dest payload.length)).countSent id payload.length)
        (transmit id src dest payload world) := by
  unfold transmit
  split
  · exact .inl (quiet_record (by rfl))
  · dsimp only
    split
    · exact .inl (quiet_record (by rfl))
    · split
      · exact .inl (quiet_record (by rfl))
      · exact .inr (quiet_cross ..)

theorem traverse_events (now : UInt64) (sender : HostId) (dest : SocketAddr) (level : Nat) (src : SocketAddr)
    (chain : List (NatBox R)) : ∀ event ∈ (traverse now sender dest level src chain).2.1, event.onWire = false := by
  induction chain generalizing level src with
  | nil => exact fun _ member => absurd member List.not_mem_nil
  | cons box rest ih =>
    intro event member
    unfold traverse at member
    split at member
    next after pass _ =>
      rcases List.mem_append.mp member with mapped | later
      · split at mapped
        · rw [List.mem_singleton.mp mapped]
          rfl
        · cases mapped
      · exact ih _ _ event later
    · rw [List.mem_singleton.mp member]
      rfl

theorem acts_foldl_answered {due : UInt64} {source : SocketAddr} (gateway : host.gateway.isSome = true)
    (responses : List (SocketAddr × List UInt8)) (world : SimWorld N G R) (found : world.hosts[id]? = some host) :
    Acts world (responses.foldl (fun earlier response =>
      earlier.pushEvent due (.delivery id response.1 source response.2 none)) world) := by
  induction responses generalizing world with
  | nil => exact .refl world
  | cons response rest ih => exact (Act.answered found gateway).one.trans (ih (world.pushEvent due _) found)

theorem acts_answered {due : UInt64} {source : SocketAddr} {len : Nat} (found : world.hosts[id]? = some host)
    (same : host'.net = host.net) (gateway : host'.gateway.isSome = true) (responses : List (SocketAddr × List UInt8)) :
    Acts world (responses.foldl (fun earlier response =>
      earlier.pushEvent due (.delivery id response.1 source response.2 none))
      ((world.setHost id host').record (.gatewayRequest id len))) := by
  have told : Acts world ((world.setHost id host').record (.gatewayRequest id len)) :=
    (acts_setHost found same).trans (acts_record rfl)
  exact told.trans (acts_foldl_answered gateway responses _ (setHost_self found))

theorem acts_route (lan : LanOps G R) (item : SocketAddr × SocketAddr × List UInt8) (world : SimWorld N G R) :
    Acts world (route lan id world item) := by
  obtain ⟨source, dest, payload⟩ := item
  unfold route
  dsimp only
  split
  · exact .refl world
  next host found =>
    split
    next gateway nat rest programmed _ =>
      have present : host.gateway.isSome = true := by
        cases held : host.gateway with
        | none => rw [held] at programmed; cases programmed
        | some _ => rfl
      refine acts_answered found ?_ ?_ _
      · exact Host.net_programmed present rfl rfl rfl
      · rfl
    · exact (Act.sent source dest payload found).one

/-! ### After an event -/

omit [SimRng R] in
theorem net_drainTcp (lan : LanOps G R) (now : UInt64) (host : Host N G R) :
    (drainTcp lan now host).1.net = host.net := by
  have opened : ∀ (state : Host N G R × List TcpEvent) intent, state.1.net = host.net →
      (openTcp lan state intent).1.net = host.net := by
    intro state intent same
    unfold openTcp
    dsimp only
    split
    · exact same
    next gateway present =>
      exact (Host.net_programmed (by rw [present]; rfl) (by rfl) (by rfl) (by rfl)).trans same
  have sent : ∀ (state : Host N G R × List TcpEvent) intent, state.1.net = host.net →
      (sendTcp lan now state intent).1.net = host.net := by
    intro state intent same
    unfold sendTcp
    dsimp only
    split
    next gateway nat rest present _ =>
      exact (Host.net_programmed (by rw [present]; rfl) (by rfl) (by rfl) (by rfl)).trans same
    · exact same
  have through := List.foldlRecOn (motive := fun state => state.1.net = host.net) host.env.tcpOut (sendTcp lan now)
    (List.foldlRecOn (motive := fun state => state.1.net = host.net) host.env.tcpConnects (openTcp lan)
      (b := ({ host with env := { host.env with tcpConnects := [], tcpOut := [], tcpCloses := [] } }, []))
      rfl (fun state same intent _ => opened state intent same))
    (fun state same intent _ => sent state intent same)
  rw [← through]
  unfold drainTcp Host.net
  dsimp only
  split
  next none_ =>
    rw [Option.map_eq_none_iff.mp none_]
  next some_ =>
    obtain ⟨gateway, present, -⟩ := Option.map_eq_some_iff.mp some_
    rw [present]

variable (lan : LanOps G R) {ops : NodeOps N}

theorem acts_drainHost (reports : Reports ops) : Acts world (drainHost lan ops id world).1 := by
  unfold drainHost
  split
  · exact .refl world
  next host found =>
    have same := net_drainTcp lan world.agenda.now { host with env := { host.env with outbox := [] } }
    have drained {host' : Host N G R} {events : List TraceEvent} (same : host'.net = host.net)
        (others : ∀ event ∈ events, event.onWire = false) (outbox : List (SocketAddr × SocketAddr × List UInt8))
        (tcpEvents : List TcpEvent) (now : UInt64) :
        Acts world (tcpEvents.foldl (fun world event => world.pushEvent (now + gatewayDelay) (.tcpDeliver id event))
          (outbox.foldl (route lan id) (events.foldl record (world.setHost id host')))) := by
      have told := (acts_setHost found same).trans (acts_foldl_record others _)
      have routed : Acts world (outbox.foldl (route lan id) (events.foldl record (world.setHost id host'))) :=
        told.trans (acts_foldl (fun item _ => acts_route lan item) _)
      exact routed.trans (acts_foldl (fun _ _ _ => acts_pushEvent rfl) _)
    dsimp only
    split
    · refine drained ?_ (fun _ member => absurd member List.not_mem_nil) _ _ _
      exact same
    next node _ =>
      refine drained ?_ (reports id node) _ _ _
      exact same

theorem acts_answer (lookup : OverlayStreamId × RepairReq) (world : SimWorld N G R) :
    Acts world (answer ops id world lookup) := by
  unfold answer
  split
  · dsimp only
    split
    all_goals exact acts_withHost.trans (acts_record rfl)
  · exact .refl world

theorem acts_settle (reports : Reports ops) (passes : Nat) (world : SimWorld N G R) :
    Acts world (settle lan ops id passes world) := by
  induction passes generalizing world with
  | zero => exact .refl world
  | succ passes ih =>
    have drained : Acts world (drainHost lan ops id world).1 := acts_drainHost lan reports
    rw [settle]
    split
    next result none_ =>
      rw [none_] at drained
      exact drained
    next result lookups _ some_ =>
      rw [some_] at drained
      exact (drained.trans (acts_foldl (fun lookup _ => acts_answer lookup) _)).trans (ih _)

theorem acts_rescheduleTimer (id : HostId) (world : SimWorld N G R) : Acts world (rescheduleTimer ops id world) := by
  have armed := armed_rescheduleTimer ops id world
  generalize rescheduleTimer ops id world = final at armed
  cases armed with
  | absent => exact .refl world
  | dropped found => exact acts_setHost found (by rfl)
  | kept => exact .refl world
  | made found =>
    exact Acts.trans (acts_setHost found (by rfl)) (acts_pushEvent rfl)

theorem acts_postProcess (reports : Reports ops) : Acts world (postProcess lan ops id world) :=
  (acts_settle lan reports _ world).trans (acts_rescheduleTimer id _)

/-! ### Into a host -/

omit [SimRng R] in
theorem enter_events (now : UInt64) (toHost : HostId) (src : SocketAddr) (level : Nat) (chain : List (NatBox R))
    (dst : SocketAddr) : ∀ event ∈ (enter now toHost src level chain dst).2.1, event.onWire = false := by
  induction chain generalizing level with
  | nil => exact fun _ member => absurd member List.not_mem_nil
  | cons box rest ih =>
    have outer := ih (level + 1)
    unfold enter
    generalize enter now toHost src (level + 1) rest dst = entered at outer
    obtain ⟨rest', events, admitted⟩ := entered
    cases admitted with
    | none => exact outer
    | some inner =>
      dsimp only
      split
      · exact outer
      · split
        · exact outer
        · exact List.forall_mem_append.mpr ⟨outer, List.forall_mem_singleton.mpr rfl⟩
        · exact outer

omit [SimRng R] in
theorem screen_events (id : HostId) (now : UInt64) (src dst : SocketAddr) (host : Host N G R) :
    ∀ event ∈ (screen now id src dst host).2.1, event.onWire = false := by
  unfold screen
  split
  · split
    · exact fun _ member => absurd member List.not_mem_nil
    · dsimp only
      split
      · exact fun _ member => absurd member List.not_mem_nil
      · exact List.forall_mem_singleton.mpr rfl
  · exact enter_events now id src 0 host.natChain dst

omit [SimRng R] in
theorem screen_keeps (id : HostId) (now : UInt64) (src dst : SocketAddr) (host : Host N G R) :
    (screen now id src dst host).1.gateway = host.gateway ∧
      (screen now id src dst host).1.sentDatagrams = host.sentDatagrams ∧
        (screen now id src dst host).1.sentBytes = host.sentBytes := by
  unfold screen
  split
  · split
    · exact ⟨rfl, rfl, rfl⟩
    · dsimp only
      split
      all_goals exact ⟨rfl, rfl, rfl⟩
  · exact ⟨rfl, rfl, rfl⟩

theorem acts_deliver (reports : Reports ops) {src dst : SocketAddr} {payload : List UInt8} :
    Acts world (deliver lan ops id src dst payload world) := by
  unfold deliver
  split
  · exact .refl world
  next host found =>
    split
    · exact .refl world
    · have others := screen_events id world.agenda.now src dst host
      have letIn := (Act.screened src dst found).one
      dsimp only
      generalize screen world.agenda.now id src dst host = admission at others letIn
      obtain ⟨admitted, events, result⟩ := admission
      have logged := letIn.trans (acts_foldl_record others _)
      dsimp only
      split
      · exact logged
      next final =>
        split
        · exact logged.trans (acts_record rfl)
        · have delivered : Acts world ((events.foldl record (world.setHost id admitted)).record
              (.delivered id src final payload.length)) := logged.trans (acts_record rfl)
          split
          next received kind =>
            split
            · have here : (events.foldl record (world.setHost id admitted)).hosts[id]? = some admitted := by
                rw [hosts_foldl_record]
                exact setHost_self found
              exact delivered.trans (acts_setHost here (by rfl))
            · exact delivered
          · exact delivered.trans (acts_withHost.trans (acts_postProcess lan reports))

theorem acts_dispatch (reports : Reports ops) (event : EventKind) : Acts world (dispatch lan ops world event) := by
  cases event with
  | delivery toHost src dst payload via => exact acts_deliver lan reports
  | timer id generation =>
    unfold dispatch
    dsimp only
    split
    · exact .refl world
    next host found =>
      split
      · exact .refl world
      · have given : Acts world (world.setHost id { host with nextTimer := none }) :=
          acts_setHost found (by rfl)
        exact given.trans (acts_withHost.trans (acts_postProcess lan reports))
  | tcpDeliver id event =>
    unfold dispatch
    dsimp only
    split
    · exact .refl world
    · split
      · exact .refl world
      · exact acts_withHost.trans (acts_postProcess lan reports)

/-! ### Runs -/

abbrev Taken := List (Agenda.Entry UInt64 EventKind)

/-- What of the world and of the entries taken from its agenda each act keeps, and the clock, the links and hosts that
join as far as `allowed`. -/
structure Kept (allowed : SimWorld N G R → WorldInput N G R → Prop) (P : SimWorld N G R → Taken → Prop) : Prop where
  act : ∀ {world world' : SimWorld N G R} {taken}, P world taken → Act world world' → P world' taken
  idle : ∀ {world : SimWorld N G R} {taken} {target : UInt64}, P world taken → allowed world (.tick target) →
    P (world.putAgenda { world.agenda with now := target }) taken
  pop : ∀ {world : SimWorld N G R} {taken} {target : UInt64} {entry rest}, P world taken →
    world.agenda.pop target = some (entry, rest) → P (world.putAgenda rest) (taken ++ [entry])
  links : ∀ {world : SimWorld N G R} {taken} (links : Std.TreeMap Link LinkParams) (defaultLink : LinkParams),
    P world taken → P { world with links := links, defaultLink := defaultLink } taken
  join : ∀ {world : SimWorld N G R} {taken} {natChain v6 gateway env kind owned owners},
    P world taken → allowed world (.join natChain v6 gateway env kind owned) →
    P { world with hosts := world.hosts ++ [⟨true, natChain, v6, gateway, env, kind, 0, none, 0, 0⟩]
                   ipOwner := owners } taken

variable {allowed : SimWorld N G R → WorldInput N G R → Prop} {P : SimWorld N G R → Taken → Prop} {taken : Taken}

theorem Kept.acts (kept : Kept allowed P) (start : P world taken) (acts : Acts world world') : P world' taken :=
  acts.keep (P := fun world => P world taken) (fun _ _ held act => kept.act held act) start

theorem kept_step (kept : Kept allowed P) (reports : Reports ops) {input : WorldInput N G R} (held : P world taken)
    (ok : allowed world input) : P (step lan ops world input).1 (taken ++ (step lan ops world input).2) := by
  have acted {next : SimWorld N G R} (acts : Acts world next) : P next (taken ++ []) := by
    rw [List.append_nil]
    exact kept.acts held acts
  cases input with
  | tick target =>
    cases popped : world.agenda.pop target with
    | none =>
      rw [step_tick_none lan ops popped, List.append_nil]
      exact kept.idle held ok
    | some next =>
      obtain ⟨entry, rest⟩ := next
      rw [step_tick_some lan ops popped]
      exact kept.acts (kept.pop held popped) (acts_dispatch lan reports entry.event)
  | join natChain v6 gateway env kind owned =>
    rw [step, List.append_nil]
    exact kept.acts (kept.join held ok) (acts_rescheduleTimer _ _)
  | setDefaultLink params =>
    rw [step, List.append_nil]
    exact kept.links world.links params held
  | setLink link params =>
    rw [step, List.append_nil]
    exact kept.links (world.links.insert link params) world.defaultLink held
  | setHostUp id up =>
    rw [step, setHostUp]
    split
    · exact acted (.refl world)
    next host found =>
      split
      · exact acted (.refl world)
      · have marked {host' : Host N G R} {event : TraceEvent} (same : host'.net = host.net)
            (off : event.onWire = false) : Acts world ((world.setHost id host').record event) :=
          (acts_setHost found same).trans (acts_record off)
        split
        · have up : Acts world ((world.setHost id { host with up := true }).record (.hostUp id)) :=
            marked (by rfl) rfl
          exact acted (up.trans (acts_rescheduleTimer id _))
        · exact acted (marked (by rfl) rfl)
  | restart id fresh =>
    rw [step, restart]
    split
    · exact acted (.refl world)
    next host found =>
      split
      · exact acted (.refl world)
      · have written : Acts world (world.setHost id { host with kind := .node (fresh world.virtualNow), up := true }) :=
          acts_setHost found (by rfl)
        exact acted (written.trans (acts_rescheduleTimer id _))
  | call id f =>
    rw [step]
    exact acted (acts_withHost.trans (acts_postProcess lan reports))
  | inspect id f =>
    have inspected : Acts world (world.withHost id (fun _ node => .done (f node))) := acts_withHost
    exact acted inspected
  | probeBind id port =>
    unfold step
    dsimp only
    split
    · exact acted (.refl world)
    next host found => exact acted (acts_setHost found (by rfl))
  | probeSend id socket dest payload =>
    unfold step
    dsimp only
    split
    · exact acted (.refl world)
    next source _ => exact acted (acts_route lan (source, dest, payload) world)

/-- The run rule of the world. -/
theorem kept_run (kept : Kept allowed P) (reports : Reports ops) {base : Instant} {rng : R}
    {inputs : List (WorldInput N G R)} (start : P (new base rng) [])
    (met : Meets (step lan ops) allowed (new base rng) inputs) :
    P (run (step lan ops) (new base rng) inputs).1 (run (step lan ops) (new base rng) inputs).2 :=
  run_history (P := fun _ world taken => P world taken) start
    (fun _ _ _ _ held ok => kept_step lan kept reports held ok) inputs met

end

end SimWorld

end Lightbringer.Overlay.Sim
