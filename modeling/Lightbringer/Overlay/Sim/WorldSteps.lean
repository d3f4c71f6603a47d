import Lightbringer.Overlay.Sim.World

/-!
# What the parts of the simulated world change

Everything a host does in the world comes down to three kinds of changes: hosts that keep their timers, entries that
are made on the agenda, and entries made beyond the horizon of a link. What the world does after an event is a row of
such changes, and at the end the timer of the host is set.
-/

namespace Lightbringer.Overlay.Sim
open PortMap

variable {N G R : Type}

def EventKind.via : EventKind → Option Link
  | .delivery _ _ _ _ via => via
  | _ => none

def EventKind.isTimer : EventKind → Bool
  | .timer _ _ => true
  | _ => false

/-- The timer of a host is kept. A touched host may give it up, and change what runs on it. -/
structure SameTimer (touched : Prop) (host host' : Host N G R) : Prop where
  up : host'.up = host.up
  generation : host'.timerGeneration = host.timerGeneration
  timer : host'.nextTimer = host.nextTimer ∨ touched ∧ host'.nextTimer = none
  node : ¬ touched → ∀ node, host'.kind = .node node → host.kind = .node node

theorem SameTimer.mono {touched wider : Prop} {host host' : Host N G R} (same : SameTimer touched host host')
    (wide : touched → wider) : SameTimer wider host host' :=
  ⟨same.up, same.generation, same.timer.imp_right (fun given => ⟨wide given.1, given.2⟩),
    fun untouched => same.node (fun narrow => untouched (wide narrow))⟩

theorem SameTimer.refl (touched : Prop) (host : Host N G R) : SameTimer touched host host :=
  ⟨rfl, rfl, .inl rfl, fun _ _ kind => kind⟩

/-- No addition to virtual time wraps up to `horizon`, and a datagram is at least `least` nanoseconds on its way. -/
structure Paced (least : Nat) (horizon : UInt64) (params : LinkParams) : Prop where
  least_le : least ≤ (asNanos params.delayMin).toNat
  min_fits : horizon.toNat + (asNanos params.delayMin).toNat < 2 ^ 64
  max_fits : horizon.toNat + (asNanos params.delayMax).toNat < 2 ^ 64

theorem Paced.mono {least : Nat} {now horizon : UInt64} {params : LinkParams} (paced : Paced least horizon params)
    (order : now ≤ horizon) : Paced least now params := by
  have less := UInt64.le_iff_toNat_le.mp order
  exact ⟨paced.least_le, Nat.lt_of_le_of_lt (Nat.add_le_add_right less _) paced.min_fits,
    Nat.lt_of_le_of_lt (Nat.add_le_add_right less _) paced.max_fits⟩

namespace SimWorld

/-- The same for all links, and for the delay of the gateway. -/
structure Roomy (least : Nat) (horizon : UInt64) (world : SimWorld N G R) : Prop where
  least_le : least ≤ 1
  gateway : horizon.toNat + gatewayDelay.toNat < 2 ^ 64
  link : ∀ link, Paced least horizon (world.links.getD link world.defaultLink)

theorem Roomy.mono {least : Nat} {now horizon : UInt64} {world : SimWorld N G R} (roomy : Roomy least horizon world)
    (order : now ≤ horizon) : Roomy least now world :=
  ⟨roomy.least_le, Nat.lt_of_le_of_lt (Nat.add_le_add_right (UInt64.le_iff_toNat_le.mp order) _) roomy.gateway,
    fun link => (roomy.link link).mono order⟩

def SameTimers (touched : Option HostId) (hosts hosts' : List (Host N G R)) : Prop :=
  hosts'.length = hosts.length ∧ ∀ id host host', hosts[id]? = some host → hosts'[id]? = some host' →
    SameTimer (touched = some id) host host'

theorem SameTimers.refl (touched : Option HostId) (hosts : List (Host N G R)) : SameTimers touched hosts hosts :=
  ⟨rfl, fun _ _ _ found found' => Option.some.inj (found.symm.trans found') ▸ .refl _ _⟩

theorem sameTimers_set {touched : Option HostId} {hosts : List (Host N G R)} {id : HostId} {host host' : Host N G R}
    (found : hosts[id]? = some host) (same : SameTimer (touched = some id) host host') :
    SameTimers touched hosts (hosts.set id host') := by
  refine ⟨List.length_set, fun other before after here there => ?_⟩
  rw [List.getElem?_set] at there
  split at there
  next equal =>
    subst equal
    split at there
    · obtain rfl := Option.some.inj there
      obtain rfl := Option.some.inj (found.symm.trans here)
      exact same
    · cases there
  · exact Option.some.inj (here.symm.trans there) ▸ .refl _ _

/-- The parts of the world that only a test sets. -/
structure SameConfig (world world' : SimWorld N G R) : Prop where
  base : world'.base = world.base
  links : world'.links = world.links
  defaultLink : world'.defaultLink = world.defaultLink

theorem SameConfig.refl (world : SimWorld N G R) : SameConfig world world := ⟨rfl, rfl, rfl⟩

theorem SameConfig.trans {first second third : SimWorld N G R} (one : SameConfig first second)
    (two : SameConfig second third) : SameConfig first third :=
  ⟨two.base.trans one.base, two.links.trans one.links, two.defaultLink.trans one.defaultLink⟩

theorem Roomy.congr {least : Nat} {horizon : UInt64} {world world' : SimWorld N G R} (roomy : Roomy least horizon world)
    (same : SameConfig world world') : Roomy least horizon world' := by
  refine ⟨roomy.least_le, roomy.gateway, fun link => ?_⟩
  rw [same.links, same.defaultLink]
  exact roomy.link link

/-- Entries are made `least` nanoseconds ahead of the clock or more. -/
inductive Change (least : Nat) (touched : Option HostId) (world : SimWorld N G R) : SimWorld N G R → Prop
  | quiet {world' : SimWorld N G R} (agenda : world'.agenda = world.agenda)
      (horizon : world'.linkHorizon = world.linkHorizon) (config : SameConfig world world')
      (hosts : SameTimers touched world.hosts world'.hosts) : Change least touched world world'
  | pushed {due : UInt64} {event : EventKind} (ahead : world.agenda.now.toNat + least ≤ due.toNat)
      (unordered : event.via = none) (other : event.isTimer = false) : Change least touched world (world.pushEvent due event)
  | carried {due : UInt64} {event : EventKind} {link : Link} (ahead : world.agenda.now.toNat + least ≤ due.toNat)
      (ordered : event.via = some link) (beyond : world.linkHorizon.getD link 0 ≤ due) :
      Change least touched world ({ world with linkHorizon := world.linkHorizon.insert link due }.pushEvent due event)

def Evolves (least : Nat) (touched : Option HostId) : SimWorld N G R → SimWorld N G R → Prop :=
  Relation.ReflTransGen (Change least touched)

section
variable {least : Nat} {touched : Option HostId} {world world' : SimWorld N G R}

theorem Change.touch {id : HostId} (change : Change least none world world') : Change least (some id) world world' := by
  cases change with
  | quiet agenda horizon config hosts =>
    refine .quiet agenda horizon config ⟨hosts.1, fun other before after here there => ?_⟩
    obtain ⟨up, generation, timer, node⟩ := hosts.2 other before after here there
    refine ⟨up, generation, .inl (timer.resolve_right (fun given => by cases given.1)), fun _ => node ?_⟩
    intro same
    cases same
  | pushed ahead unordered other => exact .pushed ahead unordered other
  | carried ahead ordered beyond => exact .carried ahead ordered beyond

theorem Evolves.touch {id : HostId} (evolves : Evolves least none world world') : Evolves least (some id) world world' :=
  Relation.ReflTransGen.mono (fun _ _ change => change.touch) _ _ evolves

theorem Evolves.trans {world'' : SimWorld N G R} (one : Evolves least touched world world')
    (two : Evolves least touched world' world'') : Evolves least touched world world'' :=
  Relation.ReflTransGen.trans one two

theorem Change.config (change : Change least touched world world') :
    SameConfig world world' ∧ world'.agenda.now = world.agenda.now := by
  cases change with
  | quiet agenda _ config _ => exact ⟨config, congrArg Agenda.now agenda⟩
  | pushed => exact ⟨⟨rfl, rfl, rfl⟩, rfl⟩
  | carried => exact ⟨⟨rfl, rfl, rfl⟩, rfl⟩

theorem Evolves.config (evolves : Evolves least touched world world') :
    SameConfig world world' ∧ world'.agenda.now = world.agenda.now := by
  induction evolves with
  | refl => exact ⟨.refl _, rfl⟩
  | tail _ change ih => exact ⟨ih.1.trans change.config.1, change.config.2.trans ih.2⟩

theorem Evolves.roomy (evolves : Evolves least touched world world') (roomy : Roomy least world.agenda.now world) :
    Roomy least world'.agenda.now world' := by
  rw [evolves.config.2]
  exact roomy.congr evolves.config.1

/-- A fold of steps that each only evolve the world. -/
theorem evolves_foldl {β : Type} {f : SimWorld N G R → β → SimWorld N G R}
    (each : ∀ world item, Roomy least world.agenda.now world → Evolves least touched world (f world item))
    (items : List β) (world : SimWorld N G R) (roomy : Roomy least world.agenda.now world) :
    Evolves least touched world (items.foldl f world) := by
  induction items generalizing world with
  | nil => exact .refl
  | cons item rest ih =>
    have here := each world item roomy
    exact here.trans (ih _ (here.roomy roomy))

theorem evolves_record (event : TraceEvent) : Evolves least touched world (world.record event) :=
  .single (.quiet rfl rfl ⟨rfl, rfl, rfl⟩ (.refl _ _))

theorem evolves_withRng (rng : R) : Evolves least touched world (world.withRng rng) :=
  .single (.quiet rfl rfl ⟨rfl, rfl, rfl⟩ (.refl _ _))

theorem evolves_foldl_record (events : List TraceEvent) (roomy : Roomy least world.agenda.now world) :
    Evolves least touched world (events.foldl record world) :=
  evolves_foldl (fun _ event _ => evolves_record event) events world roomy

theorem evolves_setHost {id : HostId} {host host' : Host N G R} (found : world.hosts[id]? = some host)
    (same : SameTimer (touched = some id) host host') : Evolves least touched world (world.setHost id host') :=
  .single (.quiet rfl rfl ⟨rfl, rfl, rfl⟩ (sameTimers_set found same))

theorem hosts_foldl_record (events : List TraceEvent) (world : SimWorld N G R) :
    (events.foldl record world).hosts = world.hosts := by
  induction events generalizing world with
  | nil => rfl
  | cons event rest ih => exact ih (world.record event)

theorem setHost_self {id : HostId} {host host' : Host N G R} (found : world.hosts[id]? = some host) :
    (world.setHost id host').hosts[id]? = some host' :=
  List.getElem?_set_self (List.getElem?_eq_some_iff.mp found).1

theorem sameTimers_modify {hosts : List (Host N G R)} {id : HostId} {f : Host N G R → Host N G R}
    (same : ∀ host, SameTimer (touched = some id) host (f host)) : SameTimers touched hosts (hosts.modify id f) := by
  refine ⟨List.length_modify _ _ _, fun other before after here there => ?_⟩
  rw [List.getElem?_modify, here] at there
  obtain rfl := Option.some.inj there
  split
  next equal =>
    subst equal
    exact same before
  · exact .refl _ _

theorem evolves_countSent {sender : HostId} {bytes : Nat} : Evolves least touched world (world.countSent sender bytes) :=
  .single (.quiet rfl rfl ⟨rfl, rfl, rfl⟩ (sameTimers_modify (fun _ => ⟨rfl, rfl, .inl rfl, fun _ _ kind => kind⟩)))

theorem toNat_add_of_fits {a b : UInt64} (fits : a.toNat + b.toNat < 2 ^ 64) : (a + b).toNat = a.toNat + b.toNat := by
  rw [UInt64.toNat_add]
  exact Nat.mod_eq_of_lt fits

/-- What the gateway sends arrives after its delay. -/
theorem evolves_pushDelayed {event : EventKind} (unordered : event.via = none) (other : event.isTimer = false)
    (roomy : Roomy least world.agenda.now world) :
    Evolves least touched world (world.pushEvent (world.agenda.now + gatewayDelay) event) := by
  refine .single (.pushed ?_ unordered other)
  rw [toNat_add_of_fits roomy.gateway]
  exact Nat.add_le_add_left (roomy.least_le.trans (by decide)) _

theorem evolves_foldl_delayed {β : Type} {event : β → EventKind}
    (plain : ∀ item, (event item).via = none ∧ (event item).isTimer = false) {now : UInt64} (items : List β)
    (world : SimWorld N G R) (roomy : Roomy least world.agenda.now world) (same : now = world.agenda.now) :
    Evolves least touched world
      (items.foldl (fun world item => world.pushEvent (now + gatewayDelay) (event item)) world) := by
  induction items generalizing world with
  | nil => exact .refl
  | cons item rest ih =>
    have here : Evolves least touched world (world.pushEvent (now + gatewayDelay) (event item)) :=
      same ▸ evolves_pushDelayed (plain item).1 (plain item).2 roomy
    exact here.trans (ih _ (here.roomy roomy) (same.trans here.config.2.symm))

end

section
variable [SimRng R] {least : Nat} {touched : Option HostId} {world : SimWorld N G R}

theorem evolves_withHost {id : HostId} {f : Instant → N → EnvProg N} :
    Evolves least (some id) world (world.withHost id f) := by
  unfold withHost
  split
  · exact .refl
  next host found =>
    split
    · exact .refl
    next node kind =>
      exact evolves_setHost found ⟨rfl, rfl, .inl rfl, fun untouched => absurd rfl untouched⟩

theorem delay_mem {params : LinkParams} {rng rng' : R} {delay : UInt64}
    (drawn : (if asNanos params.delayMin < asNanos params.delayMax then
      SimRng.randomDelay rng (asNanos params.delayMin) (asNanos params.delayMax)
      else (asNanos params.delayMin, rng)) = (delay, rng')) :
    asNanos params.delayMin ≤ delay ∧ (delay ≤ asNanos params.delayMax ∨ delay = asNanos params.delayMin) := by
  split at drawn
  next wide =>
    have delay_eq : (SimRng.randomDelay rng (asNanos params.delayMin) (asNanos params.delayMax)).1 = delay :=
      congrArg Prod.fst drawn
    rw [← delay_eq]
    exact ⟨SimRng.le_randomDelay _ _ _ wide.le, .inl (SimRng.randomDelay_le _ _ _ wide.le)⟩
  · obtain ⟨rfl, -⟩ := Prod.mk.inj drawn
    exact ⟨le_refl _, .inr rfl⟩

theorem evolves_carry {link : Link} {params : LinkParams} {src dest : SocketAddr} {payload : List UInt8}
    (paced : Paced least world.agenda.now params) :
    Evolves least touched world (carry link params src dest payload world) := by
  unfold carry
  dsimp only
  generalize drawn : (if asNanos params.delayMin < asNanos params.delayMax then
    SimRng.randomDelay world.rng (asNanos params.delayMin) (asNanos params.delayMax)
    else (asNanos params.delayMin, world.rng)) = draw
  obtain ⟨delay, rng⟩ := draw
  obtain ⟨above, below⟩ := delay_mem drawn
  have fits : world.agenda.now.toNat + delay.toNat < 2 ^ 64 := by
    rcases below with most | least_
    · have := UInt64.le_iff_toNat_le.mp most
      have := paced.max_fits
      omega
    · rw [least_]
      exact paced.min_fits
  have ahead : world.agenda.now.toNat + least ≤ (world.agenda.now + delay).toNat := by
    rw [toNat_add_of_fits fits]
    exact Nat.add_le_add_left (paced.least_le.trans (UInt64.le_iff_toNat_le.mp above)) _
  generalize (if 0 < params.reorderProbability then SimRng.randomBool rng params.reorderProbability
    else (false, rng)) = reorder
  obtain ⟨reordered, rng⟩ := reorder
  have redrawn : Evolves least touched world (world.withRng rng) := evolves_withRng rng
  dsimp only
  split
  · exact redrawn.tail (.pushed ahead rfl rfl)
  · have later : (world.agenda.now + delay).toNat ≤ (max (world.agenda.now + delay) (world.linkHorizon.getD link 0)).toNat :=
      UInt64.le_iff_toNat_le.mp (le_max_left _ _)
    exact redrawn.tail (.carried (ahead.trans later) rfl (le_max_right _ _))

theorem evolves_cross {link : Link} {params : LinkParams} {src dest : SocketAddr} {payload : List UInt8}
    (paced : Paced least world.agenda.now params) :
    Evolves least touched world (cross link params src dest payload world) := by
  unfold cross
  dsimp only
  generalize SimRng.randomBool world.rng params.dropProbability = drop
  obtain ⟨dropped, rng⟩ := drop
  refine (evolves_withRng rng).trans ?_
  dsimp only
  split
  · exact evolves_record _
  · generalize (if 0 < params.duplicateProbability then SimRng.randomBool (world.withRng rng).rng
      params.duplicateProbability else (false, (world.withRng rng).rng)) = duplicate
    obtain ⟨duplicated, rng'⟩ := duplicate
    refine (evolves_withRng rng').trans ?_
    dsimp only
    split
    · refine (evolves_record (.linkDuplicated link.sender link.owner)).trans ?_
      have once : Evolves least touched (((world.withRng rng).withRng rng').record (.linkDuplicated link.sender link.owner))
          (carry link params src dest payload
            (((world.withRng rng).withRng rng').record (.linkDuplicated link.sender link.owner))) := evolves_carry paced
      exact once.trans (evolves_carry (by rw [once.config.2]; exact paced))
    · exact evolves_carry paced

theorem evolves_transmit {sender : HostId} {src dest : SocketAddr} {payload : List UInt8}
    (roomy : Roomy least world.agenda.now world) :
    Evolves least touched world (transmit sender src dest payload world) := by
  unfold transmit
  split
  · exact evolves_record _
  · dsimp only
    split
    · exact evolves_record _
    · split
      · exact evolves_record _
      · refine (evolves_record _).trans (evolves_countSent.trans (evolves_cross ?_))
        exact roomy.link _

theorem evolves_routeOut {sender : HostId} {source dest : SocketAddr} {payload : List UInt8} {host : Host N G R}
    (found : world.hosts[sender]? = some host) (roomy : Roomy least world.agenda.now world) :
    Evolves least touched world (routeOut sender source dest payload host world) := by
  unfold routeOut
  dsimp only
  split
  · have kept : Evolves least touched world (world.setHost sender { host with v6 := host.v6.map (fun v6 =>
        { v6 with firewall := v6.firewall.map (fun box => box.outbound world.agenda.now source dest) }) }) :=
      evolves_setHost found ⟨rfl, rfl, .inl rfl, fun _ _ kind => kind⟩
    exact kept.trans (evolves_transmit (kept.roomy roomy))
  · generalize traverse world.agenda.now sender dest 0 source host.natChain = passed
    obtain ⟨chain, events, result⟩ := passed
    dsimp only
    have kept : Evolves least touched world (world.setHost sender { host with natChain := chain }) :=
      evolves_setHost found ⟨rfl, rfl, .inl rfl, fun _ _ kind => kind⟩
    have told := kept.trans (evolves_foldl_record events (kept.roomy roomy))
    split
    · exact told.trans (evolves_transmit (told.roomy roomy))
    · exact told

omit [SimRng R] in
theorem evolves_answered {sender : HostId} {host host' : Host N G R} {source : SocketAddr} {len : Nat}
    (found : world.hosts[sender]? = some host) (same : SameTimer False host host')
    (responses : List (SocketAddr × List UInt8)) (roomy : Roomy least world.agenda.now world) :
    Evolves least touched world
      (responses.foldl (fun earlier response =>
        earlier.pushEvent (world.agenda.now + gatewayDelay) (.delivery sender response.1 source response.2 none))
        ((world.setHost sender host').record (.gatewayRequest sender len))) := by
  have kept : Evolves least touched world (world.setHost sender host') :=
    evolves_setHost found (same.mono False.elim)
  have told := kept.trans (evolves_record (.gatewayRequest sender len))
  exact told.trans (evolves_foldl_delayed (fun _ => ⟨rfl, rfl⟩) responses _ (told.roomy roomy) rfl)

theorem evolves_route (lan : LanOps G R) {sender : HostId} {item : SocketAddr × SocketAddr × List UInt8}
    (roomy : Roomy least world.agenda.now world) : Evolves least touched world (route lan sender world item) := by
  obtain ⟨source, dest, payload⟩ := item
  unfold route
  dsimp only
  split
  · exact .refl
  next host found =>
    split
    · refine evolves_answered found ?_ _ roomy
      exact ⟨rfl, rfl, .inl rfl, fun _ _ kind => kind⟩
    · exact evolves_routeOut found roomy

/-! ### After an event -/

omit [SimRng R] in
theorem drainTcp_same (lan : LanOps G R) (now : UInt64) (host : Host N G R) :
    SameTimer False host (drainTcp lan now host).1 := by
  have opened : ∀ state intent, SameTimer False host state.1 → SameTimer False host (openTcp lan state intent).1 := by
    intro state intent same
    unfold openTcp
    dsimp only
    split
    · exact same
    · exact ⟨same.up, same.generation, same.timer, same.node⟩
  have sent : ∀ state intent, SameTimer False host state.1 → SameTimer False host (sendTcp lan now state intent).1 := by
    intro state intent same
    unfold sendTcp
    dsimp only
    split
    · exact ⟨same.up, same.generation, same.timer, same.node⟩
    · exact same
  have through := List.foldlRecOn (motive := fun state => SameTimer False host state.1) host.env.tcpOut (sendTcp lan now)
    (List.foldlRecOn (motive := fun state => SameTimer False host state.1) host.env.tcpConnects (openTcp lan)
      (b := ({ host with env := { host.env with tcpConnects := [], tcpOut := [], tcpCloses := [] } }, []))
      ⟨rfl, rfl, .inl rfl, fun _ _ kind => kind⟩ (fun state same intent _ => opened state intent same))
    (fun state same intent _ => sent state intent same)
  exact ⟨through.up, through.generation, through.timer, through.node⟩

variable (lan : LanOps G R) (ops : NodeOps N) {id : HostId}

theorem evolves_drained {host host' : Host N G R} (found : world.hosts[id]? = some host) (same : SameTimer True host host')
    (events : List TraceEvent) (outbox : List (SocketAddr × SocketAddr × List UInt8)) (tcpEvents : List TcpEvent)
    (roomy : Roomy least world.agenda.now world) :
    Evolves least (some id) world
      (tcpEvents.foldl (fun earlier event => earlier.pushEvent (world.agenda.now + gatewayDelay) (.tcpDeliver id event))
        (outbox.foldl (route lan id) (events.foldl record (world.setHost id host')))) := by
  have kept : Evolves least (some id) world (world.setHost id host') :=
    evolves_setHost found (same.mono (fun _ => rfl))
  have told := kept.trans (evolves_foldl_record events (kept.roomy roomy))
  have routed := told.trans (evolves_foldl (f := route lan id) (fun _ _ => evolves_route lan) outbox _ (told.roomy roomy))
  exact routed.trans (evolves_foldl_delayed (fun _ => ⟨rfl, rfl⟩) tcpEvents _ (routed.roomy roomy)
    routed.config.2.symm)

theorem evolves_drainHost (roomy : Roomy least world.agenda.now world) :
    Evolves least (some id) world (drainHost lan ops id world).1 := by
  unfold drainHost
  split
  · exact .refl
  next host found =>
    have same := drainTcp_same lan world.agenda.now { host with env := { host.env with outbox := [] } }
    dsimp only
    split
    all_goals
      refine evolves_drained lan found ?_ _ _ _ roomy
      exact ⟨same.up, same.generation, .inl (same.timer.resolve_right And.left), fun no => absurd trivial no⟩

theorem evolves_answer {lookup : OverlayStreamId × RepairReq} :
    Evolves least (some id) world (answer ops id world lookup) := by
  unfold answer
  split
  · dsimp only
    split
    all_goals exact evolves_withHost.trans (evolves_record _)
  · exact .refl

theorem evolves_settle (passes : Nat) (world : SimWorld N G R) (roomy : Roomy least world.agenda.now world) :
    Evolves least (some id) world (settle lan ops id passes world) := by
  induction passes generalizing world with
  | zero => exact .refl
  | succ passes ih =>
    have drained : Evolves least (some id) world (drainHost lan ops id world).1 := evolves_drainHost lan ops roomy
    rw [settle]
    split
    next result none_ =>
      rw [none_] at drained
      exact drained
    next result lookups _ some_ =>
      rw [some_] at drained
      have answered := drained.trans
        (evolves_foldl (f := answer ops id) (fun _ _ _ => evolves_answer ops) lookups _ (drained.roomy roomy))
      exact answered.trans (ih _ (answered.roomy roomy))

/-- What `post_process` does after a host was touched: changes, and then its timer is set. -/
inductive Outcome (least : Nat) (world : SimWorld N G R) : SimWorld N G R → Prop
  | idle {final : SimWorld N G R} (evolves : Evolves least none world final) : Outcome least world final
  | touched {id : HostId} {mid : SimWorld N G R} (evolves : Evolves least (some id) world mid) :
      Outcome least world (rescheduleTimer ops id mid)

theorem outcome_postProcess {mid : SimWorld N G R} (evolves : Evolves least (some id) world mid)
    (roomy : Roomy least world.agenda.now world) : Outcome ops least world (postProcess lan ops id mid) :=
  .touched (evolves.trans (evolves_settle lan ops _ mid (evolves.roomy roomy)))

omit [SimRng R] in
theorem screen_same (id : HostId) (now : UInt64) (src dst : SocketAddr) (host : Host N G R) :
    SameTimer False host (screen now id src dst host).1 := by
  unfold screen
  split
  · split
    · exact .refl _ _
    · dsimp only
      split
      all_goals exact ⟨rfl, rfl, .inl rfl, fun _ _ kind => kind⟩
  · exact ⟨rfl, rfl, .inl rfl, fun _ _ kind => kind⟩

theorem outcome_deliver {src dst : SocketAddr} {payload : List UInt8} (roomy : Roomy least world.agenda.now world) :
    Outcome ops least world (deliver lan ops id src dst payload world) := by
  unfold deliver
  split
  · exact .idle .refl
  next host found =>
    split
    · exact .idle .refl
    · have same := screen_same id world.agenda.now src dst host
      dsimp only
      generalize screen world.agenda.now id src dst host = admission at same
      obtain ⟨admitted, events, result⟩ := admission
      have kept : Evolves least none world (world.setHost id admitted) :=
        evolves_setHost found (same.mono False.elim)
      have told := kept.trans (evolves_foldl_record events (kept.roomy roomy))
      dsimp only
      split
      · exact .idle told
      next final =>
        split
        · exact .idle (told.trans (evolves_record _))
        · have delivered := told.trans (evolves_record (.delivered id src final payload.length))
          split
          next received kind =>
            split
            · have here : (events.foldl record (world.setHost id admitted)).hosts[id]? = some admitted := by
                rw [hosts_foldl_record]
                exact setHost_self found
              refine .idle (delivered.trans (evolves_setHost here ?_))
              exact ⟨rfl, rfl, .inl rfl, fun _ node held => by cases held⟩
            · exact .idle delivered
          · exact outcome_postProcess lan ops (delivered.touch.trans evolves_withHost) roomy

/-- Setting the timer of a host: its wake-up is given up, kept, or made anew. -/
inductive Armed (id : HostId) (world : SimWorld N G R) : SimWorld N G R → Prop
  | absent (none_ : ∀ host, world.hosts[id]? = some host → host.up = true → ∀ node, host.kind ≠ .node node) :
      Armed id world world
  | dropped {host : Host N G R} {node : N} (found : world.hosts[id]? = some host) (kind : host.kind = .node node)
      (never : ops.pollTimeout node = none) : Armed id world (world.setHost id { host with nextTimer := none })
  | kept {host : Host N G R} {node : N} {deadline : Instant} (found : world.hosts[id]? = some host) (up : host.up = true)
      (kind : host.kind = .node node) (wanted : ops.pollTimeout node = some deadline)
      (same : host.nextTimer = some (world.wakeUp deadline)) :
      Armed id world world
  | made {host : Host N G R} {node : N} {deadline : Instant} (found : world.hosts[id]? = some host) (up : host.up = true)
      (kind : host.kind = .node node) (wanted : ops.pollTimeout node = some deadline) :
      Armed id world
        ((world.setHost id { host with
          nextTimer := some (world.wakeUp deadline)
          timerGeneration := host.timerGeneration + 1 }).pushEvent (world.wakeUp deadline)
            (.timer id (host.timerGeneration + 1)))

omit [SimRng R] in
theorem armed_rescheduleTimer (id : HostId) (world : SimWorld N G R) :
    Armed ops id world (rescheduleTimer ops id world) := by
  unfold rescheduleTimer
  split
  next missing => exact .absent (fun host found => by rw [missing] at found; cases found)
  next host found =>
    split
    next node up kind =>
      split
      next never => exact .dropped found kind never
      next deadline wanted =>
        dsimp only
        split
        next same => exact .kept found up kind wanted same
        · exact .made found up kind wanted
    next other =>
      refine .absent (fun host' found' up node kind => ?_)
      obtain rfl := Option.some.inj (found.symm.trans found')
      exact other node up kind

theorem outcome_dispatch (event : EventKind) (roomy : Roomy least world.agenda.now world) :
    Outcome ops least world (dispatch lan ops world event) := by
  cases event with
  | delivery toHost src dst payload via => exact outcome_deliver lan ops roomy
  | timer id generation =>
    unfold dispatch
    dsimp only
    split
    · exact .idle .refl
    next host found =>
      split
      · exact .idle .refl
      · have given : Evolves least (some id) world (world.setHost id { host with nextTimer := none }) :=
          evolves_setHost found ⟨rfl, rfl, .inr ⟨rfl, rfl⟩, fun no => absurd rfl no⟩
        exact outcome_postProcess lan ops (given.trans evolves_withHost) roomy
  | tcpDeliver id event =>
    unfold dispatch
    dsimp only
    split
    · exact .idle .refl
    · split
      · exact .idle .refl
      · exact outcome_postProcess lan ops evolves_withHost roomy

end

end SimWorld

end Lightbringer.Overlay.Sim
