import Lightbringer.Overlay.Sim.GatewayAnswers

/-!
# The mapper and the gateway agree on leases

A host behind its NAT, as the simulator wires it: what the mapper sends to the gateway is served at once, the answers
arrive after a fixed delay. Whatever else goes through the NAT, a mapping that the mapper holds from PCP or NAT-PMP is
one that the NAT honours, up to that delay.
-/

namespace Lightbringer.Overlay.Sim
open Std Machine PortMap

/-- An answer of the gateway on its way to the host. -/
structure InFlight where
  arrival : UInt64
  source : SocketAddr
  payload : List UInt8

/-- The start of the clock, the address of the host and the ports of its sockets. -/
structure Home where
  base : Instant
  host : IpAddr
  portOf : SocketId → UInt16

structure HomeNet (R : Type) where
  clock : UInt64
  mapper : PortMap.PortMapper
  gateway : Gateway
  nat : NatBox R
  firewall : Option FirewallBox
  inFlight : List InFlight

/-- What the environment of the mapper draws and answers. -/
structure Draws where
  nonce : List UInt8
  nonceV6 : List UInt8
  tcp : Option TcpId
  nonce_length : nonce.length = 12
  nonceV6_length : nonceV6.length = 12

def Draws.env (draws : Draws) (home : Home) (now : UInt64) : PortMapEnv :=
  ⟨home.base + now.toNat, draws.nonce, draws.nonceV6, draws.tcp⟩

/-- An answer may be lost, where the host is down. `traffic` is anything else that goes through the NAT. -/
inductive HomeInput where
  | timer (now : UInt64) (draws : Draws)
  | deliver (draws : Draws)
  | lost
  | tcp (now : UInt64) (draws : Draws) (event : TcpEvent)
  | traffic (c : NatBox.Call)

section
variable {R : Type} [PortRng R] (home : Home)

/-- `route`, for what the mapper sends: to the gateway on the LAN, or out through the NAT. -/
def route (net : HomeNet R) : PortMapAction → HomeNet R
  | .sent socket dest raw =>
    let src : SocketAddr := ⟨home.host, home.portOf socket⟩
    if net.gateway.isGatewayDst dest then
      let served := net.gateway.handleUdp net.clock src raw net.nat net.firewall dest
      { net with
        gateway := served.gateway
        nat := served.nat
        firewall := served.firewall
        inFlight := net.inFlight ++
          served.responses.map (fun response => ⟨net.clock + gatewayDelay, response.1, response.2⟩) }
    else { net with nat := (net.nat.outbound net.clock src dest).1 }
  | _ => net

/-- The mapper after a step, and its actions carried out. -/
def perform (net : HomeNet R) (result : PortMap.PortMapper × List PortMapAction) : HomeNet R :=
  result.2.foldl (route home) { net with mapper := result.1 }

def homeStep (net : HomeNet R) : HomeInput → HomeNet R × List PortMapAction
  | .timer now draws =>
    let result := net.mapper.onTimer (draws.env home now)
    (perform home { net with clock := now } result, result.2)
  | .deliver draws =>
    match net.inFlight with
    | [] => (net, [])
    | item :: rest =>
      let result := net.mapper.onDatagram (draws.env home item.arrival) item.source item.payload
      (perform home { net with clock := item.arrival, inFlight := rest } result, result.2)
  | .lost =>
    match net.inFlight with
    | [] => (net, [])
    | item :: rest => ({ net with clock := item.arrival, inFlight := rest }, [])
  | .tcp now draws event =>
    let result := net.mapper.onTcpEvent (draws.env home now) event
    (perform home { net with clock := now } result, result.2)
  | .traffic c =>
    match net.nat.call c with
    | none => (net, [])
    | some nat => ({ net with clock := c.time.getD net.clock, nat := nat }, [])

end

/-! ### What is assumed of a run -/

/-- Time does not go back, and answers arrive in time. -/
def Timely {R : Type} (lease : Nat) (net : HomeNet R) (now : UInt64) : Prop :=
  net.clock ≤ now ∧ (∀ item ∈ net.inFlight, now ≤ item.arrival) ∧ Room lease now

/-- Whether an input may come now. -/
def Fits {R : Type} (internal : SocketAddr) (lease : Nat) (net : HomeNet R) : HomeInput → Prop
  | .timer now _ | .tcp now _ _ => Timely lease net now
  | .deliver _ | .lost => ∀ item ∈ net.inFlight.head?, Room lease item.arrival
  | .traffic c => Decent internal lease c ∧ ∀ now ∈ c.time, Timely lease net now

/-! ### The NAT keeps its address -/

section
variable {R : Type} {nat : NatBox R}

theorem evictAll_externalIp (nat : NatBox R) (slots : List Slot) :
    (slots.foldl NatBox.evict nat).externalIp = nat.externalIp := by
  induction slots generalizing nat with
  | nil => rfl
  | cons slot rest ih =>
    refine (ih (nat.evict slot)).trans ?_
    unfold NatBox.evict
    split <;> rfl

theorem inboundMapped_externalIp {now : UInt64} {src dst : SocketAddr}
    {result : NatBox R × Except NatDropReason SocketAddr} (passed : nat.inboundMapped now src dst = some result) :
    result.1.externalIp = nat.externalIp := by
  unfold NatBox.inboundMapped at passed
  split at passed
  · obtain rfl := Option.some.inj passed
    rfl
  · obtain ⟨seen, _, rfl⟩ := Option.map_eq_some_iff.mp passed
    have evicted := evictAll_externalIp nat seen.expired
    unfold NatBox.settle
    dsimp only
    split
    · exact evicted
    · split <;> exact evicted

theorem installStatic_externalIp (nat : NatBox R) (now : UInt64) (internal : SocketAddr) (requested : UInt16)
    (lifetime : Nat) : (nat.installStatic now internal requested lifetime).1.externalIp = nat.externalIp := by
  rcases NatBox.installStatic_cases nat now internal requested lifetime with ⟨_, _, same, put⟩ | ⟨_, same, swept⟩
  · rw [same]
    exact put.externalIp
  · rw [same]
    exact swept.externalIp

theorem call_externalIp [PortRng R] {c : NatBox.Call} {after : NatBox R} (called : nat.call c = some after) :
    after.externalIp = nat.externalIp := by
  cases c with
  | outbound now src dst =>
    obtain rfl := Option.some.inj called
    cases pinned : nat.staticPort now src with
    | some port => rw [NatBox.outbound_of_leased pinned]
    | none =>
      rw [NatBox.outbound_of_unleased pinned]
      rcases NatBox.outboundMapped_cases nat now ⟨src, mapKey nat.config.mapping dst⟩ dst with
        ⟨_, _, _, _, wrote, sent⟩ | ⟨_, _, _, wrote, sent⟩ | ⟨_, swept, sent⟩
      · rw [sent]
        exact wrote.externalIp
      · rw [sent]
        exact wrote.externalIp
      · rw [sent]
        exact swept.externalIp
  | inbound now src dst =>
    obtain ⟨result, passed, rfl⟩ := Option.map_eq_some_iff.mp called
    unfold NatBox.inbound at passed
    split at passed
    · exact inboundMapped_externalIp passed
    · split at passed
      · obtain rfl := Option.some.inj passed
        rfl
      · have kept := inboundMapped_externalIp passed
        exact kept
  | installStatic now internal requested lifetime =>
    obtain rfl := Option.some.inj called
    exact installStatic_externalIp nat now internal requested lifetime
  | removeStatic internal externalPort =>
    obtain rfl := Option.some.inj called
    unfold NatBox.removeStatic
    split
    · rfl
    · split <;> rfl

end

/-! ### The invariant -/

/-- What is on its way is true, and what the mapper believes the NAT honours. -/
structure Agreed {R : Type} (home : Home) (config : PortMapConfig) (gateway : GatewayConfig) (octets : BitVec 32)
    (net : HomeNet R) : Prop where
  sound : ∃ log, PortMap.PortMapper.Sound config net.mapper log
  nonces : net.mapper.nonce.length = 12 ∧ net.mapper.nonceV6.length = 12
  configured : net.gateway.config = gateway
  lanIp : net.gateway.lanIp = config.gateway.ip
  external : net.nat.externalIp = .v4 octets
  room : Room (leaseOf gateway) net.clock
  ordered : net.inFlight.Pairwise (fun early late => early.arrival ≤ late.arrival)
  arrivals : ∀ item ∈ net.inFlight, net.clock ≤ item.arrival ∧
    item.arrival.toNat ≤ net.clock.toNat + gatewayDelay.toNat
  bound : net.inFlight ≠ [] → net.mapper.socket.isSome
  answers : ∀ item ∈ net.inFlight, Tells net.mapper (.v4 octets) (fun port secs =>
    Backs (leaseOf gateway) ⟨home.host, config.internalPort⟩ net.clock net.nat port
      (item.arrival.toNat + fromSecs secs)) item.payload
  phase : PortMap.PortMapper.Phase.Knows (· = .v4 octets) net.mapper.phase
  mapped : ∀ m, net.mapper.mapped = some m → m.protocol ≠ .upnp → m.external.ip = .v4 octets ∧
    ∃ ends, m.grantedAt + m.lease ≤ home.base + ends ∧
      Backs (leaseOf gateway) ⟨home.host, config.internalPort⟩ net.clock net.nat m.external.port ends

section
variable {R : Type} {home : Home} {config : PortMapConfig} {gateway : GatewayConfig} {octets : BitVec 32}
  {net : HomeNet R}

/-- The clock goes on, as far as the next answer. -/
theorem Agreed.wait {now : UInt64} (h : Agreed home config gateway octets net)
    (timely : Timely (leaseOf gateway) net now) : Agreed home config gateway octets { net with clock := now } where
  sound := h.sound
  nonces := h.nonces
  configured := h.configured
  lanIp := h.lanIp
  external := h.external
  room := timely.2.2
  ordered := h.ordered
  arrivals item member := by
    have order := UInt64.le_iff_toNat_le.mp timely.1
    have near := (h.arrivals item member).2
    exact ⟨timely.2.1 item member, by dsimp only; omega⟩
  bound := h.bound
  answers item member := (h.answers item member).imp (fun _ _ backs => backs.later timely.1)
  phase := h.phase
  mapped m found lasting := by
    obtain ⟨ip, ends, within, backs⟩ := h.mapped m found lasting
    exact ⟨ip, ends, within, backs.later timely.1⟩

/-- The next answer is taken off. -/
theorem Agreed.pop {item : InFlight} {rest : List InFlight} (h : Agreed home config gateway octets net)
    (next : net.inFlight = item :: rest) (room : Room (leaseOf gateway) item.arrival) :
    Agreed home config gateway octets { net with clock := item.arrival, inFlight := rest } := by
  have later : ∀ other ∈ rest, other ∈ net.inFlight := fun other member => by
    rw [next]
    exact List.mem_cons_of_mem _ member
  have here : item ∈ net.inFlight := by
    rw [next]
    exact List.mem_cons_self ..
  have order := (h.arrivals item here).1
  have order' := UInt64.le_iff_toNat_le.mp order
  have ordered := h.ordered
  rw [next, List.pairwise_cons] at ordered
  exact {
    sound := h.sound
    nonces := h.nonces
    configured := h.configured
    lanIp := h.lanIp
    external := h.external
    room := room
    ordered := ordered.2
    arrivals := fun other member => by
      have near := (h.arrivals other (later other member)).2
      exact ⟨ordered.1 other member, by dsimp only; omega⟩
    bound := fun _ => h.bound (List.ne_nil_of_mem here)
    answers := fun other member => (h.answers other (later other member)).imp (fun _ _ backs => backs.later order)
    phase := h.phase
    mapped := fun m found lasting => by
      obtain ⟨ip, ends, within, backs⟩ := h.mapped m found lasting
      exact ⟨ip, ends, within, backs.later order⟩ }

/-- A decent call goes through the NAT. -/
theorem Agreed.call [PortRng R] {c : NatBox.Call} {after : NatBox R} (h : Agreed home config gateway octets net)
    (timely : ∀ now ∈ c.time, now = net.clock) (decent : Decent ⟨home.host, config.internalPort⟩ (leaseOf gateway) c)
    (called : net.nat.call c = some after) : Agreed home config gateway octets { net with nat := after } where
  sound := h.sound
  nonces := h.nonces
  configured := h.configured
  lanIp := h.lanIp
  external := (call_externalIp called).trans h.external
  room := h.room
  ordered := h.ordered
  arrivals := h.arrivals
  bound := h.bound
  answers item member :=
    (h.answers item member).imp (fun _ _ backs => backs.of_call timely h.room decent called)
  phase := h.phase
  mapped m found lasting := by
    obtain ⟨ip, ends, within, backs⟩ := h.mapped m found lasting
    exact ⟨ip, ends, within, backs.of_call timely h.room decent called⟩

end

/-! ### Steps -/

section
variable {R : Type} [PortRng R] {home : Home} {config : PortMapConfig} {gateway : GatewayConfig} {octets : BitVec 32}
  {net : HomeNet R} {clientIp : BitVec 32}

theorem agreed_route {socket : SocketId} {dest : SocketAddr} {raw : List UInt8}
    (h : Agreed home config gateway octets net)
    (honest : gateway.Earnest) (client : config.internalIp = .v4 clientIp)
    (at_ : config.gateway.port = pcpPort) (bound : net.mapper.socket.isSome) (requests : net.mapper.Requests dest raw) :
    Agreed home config gateway octets (route home net (.sent socket dest raw)) := by
  obtain ⟨log, sound⟩ := h.sound
  have toGateway : net.gateway.isGatewayDst dest = true := by
    unfold Gateway.isGatewayDst
    rcases requests with rfl | ⟨rfl, _⟩
    · simp
    · simp [h.lanIp, sound.config]
  unfold route
  dsimp only
  rw [if_pos toGateway]
  have well : ServedWell net.gateway net.clock net.nat ⟨home.host, config.internalPort⟩ net.mapper (.v4 octets)
      (net.gateway.handleUdp net.clock ⟨home.host, home.portOf socket⟩ raw net.nat net.firewall dest) := by
    rw [← sound.config] at client at_ ⊢
    refine served_handleUdp ?_ h.external ?_ h.nonces client at_ rfl requests
    · rw [h.configured]
      exact h.room
    · rw [h.configured]
      exact honest
  generalize net.gateway.handleUdp net.clock ⟨home.host, home.portOf socket⟩ raw net.nat net.firewall dest = served
    at well
  -- The NAT after the request, with everything else as before.
  have leased : Agreed home config gateway octets { net with nat := served.nat } := by
    rcases well.nat with same | ⟨owner, requested, same⟩
    · rw [same]
      exact h
    · rw [h.configured] at same
      refine h.call (c := .installStatic net.clock owner requested (leaseOf gateway)) (fun now here => ?_) (fun _ => ?_)
        (by rw [same]; rfl)
      · exact (Option.some.inj here).symm
      · have room := h.room
        unfold Room at room
        exact ⟨Nat.le_refl _, by omega⟩
  have arrival : (net.clock + gatewayDelay).toNat = net.clock.toNat + gatewayDelay.toNat := by
    have room := h.room
    unfold Room at room
    rw [UInt64.toNat_add, Nat.mod_eq_of_lt (by omega)]
  have fresh : ∀ item ∈ served.responses.map (fun response =>
      (⟨net.clock + gatewayDelay, response.1, response.2⟩ : InFlight)), item.arrival = net.clock + gatewayDelay := by
    intro item member
    obtain ⟨response, _, rfl⟩ := List.mem_map.mp member
    rfl
  exact {
    sound := h.sound
    nonces := h.nonces
    configured := well.config.trans h.configured
    lanIp := well.lanIp.trans h.lanIp
    external := leased.external
    room := h.room
    ordered := by
      refine List.pairwise_append.mpr ⟨h.ordered, ?_, fun early before late member => ?_⟩
      · exact List.pairwise_map.mpr (List.pairwise_of_forall (fun _ _ => UInt64.le_refl _))
      · rw [fresh late member, UInt64.le_iff_toNat_le, arrival]
        exact (h.arrivals early before).2
    arrivals := fun item member => by
      rcases List.mem_append.mp member with before | new
      · exact h.arrivals item before
      · rw [fresh item new, UInt64.le_iff_toNat_le, arrival]
        exact ⟨Nat.le_add_right _ _, Nat.le_refl _⟩
    bound := fun _ => bound
    answers := fun item member => by
      rcases List.mem_append.mp member with before | new
      · exact leased.answers item before
      · obtain ⟨response, answered, rfl⟩ := List.mem_map.mp new
        have truth := well.answers response answered
        rw [h.configured] at truth
        exact truth
    phase := h.phase
    mapped := leased.mapped }

theorem route_mapper (net : HomeNet R) (action : PortMapAction) : (route home net action).mapper = net.mapper := by
  cases action with
  | sent socket dest raw =>
    unfold route
    dsimp only
    split <;> rfl
  | _ => rfl

theorem agreed_perform {result : PortMap.PortMapper × List PortMapAction}
    (h : Agreed home config gateway octets { net with mapper := result.1 })
    (honest : gateway.Earnest) (client : config.internalIp = .v4 clientIp)
    (at_ : config.gateway.port = pcpPort)
    (sent : ∀ socket dest raw, .sent socket dest raw ∈ result.2 → result.1.socket.isSome ∧ result.1.Requests dest raw) :
    Agreed home config gateway octets (perform home net result) := by
  obtain ⟨mapper, actions⟩ := result
  dsimp only at h sent
  unfold perform
  dsimp only
  generalize start : { net with mapper := mapper } = current at h ⊢
  have own : current.mapper = mapper := by rw [← start]
  clear start
  induction actions generalizing current with
  | nil => exact h
  | cons action rest ih =>
    have later : ∀ socket dest raw, .sent socket dest raw ∈ rest → mapper.socket.isSome ∧ mapper.Requests dest raw :=
      fun socket dest raw member => sent socket dest raw (List.mem_cons_of_mem _ member)
    refine ih later (route home current action) ?_ ((route_mapper current action).trans own)
    cases action with
    | sent socket dest raw =>
      obtain ⟨bound, requests⟩ := sent socket dest raw (List.mem_cons_self ..)
      rw [← own] at bound requests
      exact agreed_route h honest client at_ bound requests
    | _ => exact h

/-- The mapper takes a step in which it speaks, and whatever it comes to hold is backed. -/
theorem agreed_step {env : PortMapEnv} {result : PortMap.PortMapper × List PortMapAction} (input : PortMap.Input)
    (h : Agreed home config gateway octets net) (honest : gateway.Earnest)
    (client : config.internalIp = .v4 clientIp) (at_ : config.gateway.port = pcpPort)
    (drawn : env.nonce.length = 12 ∧ env.nonceV6.length = 12)
    (speaks : PortMap.PortMapper.Speaks (· = .v4 octets) env net.mapper result) (stepped : net.mapper.step input = result)
    (grants : ∀ m, net.mapper.Grants input m → ¬ net.mapper.Pinholes input → m.protocol ≠ .upnp →
      m.external.ip = .v4 octets ∧ ∃ ends, m.grantedAt + m.lease ≤ home.base + ends ∧
        Backs (leaseOf gateway) ⟨home.host, config.internalPort⟩ net.clock net.nat m.external.port ends) :
    Agreed home config gateway octets (perform home net result) := by
  obtain ⟨log, sound⟩ := h.sound
  have safe := PortMap.PortMapper.safe_step sound.homed input
  have sound' := PortMap.PortMapper.sound_step sound input
  rw [stepped] at safe sound'
  refine agreed_perform ?_ honest client at_ speaks.sent
  exact {
    sound := ⟨_, sound'⟩
    nonces := by
      rcases speaks.nonces with ⟨nonce, nonceV6, _⟩ | ⟨_, nonce, nonceV6, _⟩
      · exact ⟨by dsimp only; rw [nonce]; exact h.nonces.1, by dsimp only; rw [nonceV6]; exact h.nonces.2⟩
      · exact ⟨by dsimp only; rw [nonce]; exact drawn.1, by dsimp only; rw [nonceV6]; exact drawn.2⟩
    configured := h.configured
    lanIp := h.lanIp
    external := h.external
    room := h.room
    ordered := h.ordered
    arrivals := h.arrivals
    bound := fun waiting => by
      rcases speaks.nonces with ⟨_, _, socket⟩ | ⟨_, _, _, bound⟩
      · dsimp only
        rw [socket]
        exact h.bound waiting
      · exact bound
    answers := fun item member => by
      -- Nonces are only drawn while nothing is on its way.
      have bound := h.bound (List.ne_nil_of_mem member)
      rcases speaks.nonces with ⟨nonce, nonceV6, _⟩ | ⟨unbound, _⟩
      · obtain ⟨pcp, external, natPmp⟩ := h.answers item member
        refine ⟨fun response parsed own other => ?_, external, natPmp⟩
        exact pcp response parsed (own.trans nonce) (fun same => other (same.trans nonceV6.symm))
      · rw [unbound] at bound
        cases bound
    phase := speaks.phase
    mapped := fun m found lasting => by
      rcases safe.mapped with same | ⟨env', _, dropped⟩ | ⟨new, taken, granted, _⟩
      · exact h.mapped m (same ▸ found) lasting
      · dsimp only at found
        rw [dropped] at found
        exact h.mapped m (Option.filter_eq_some_iff.mp found).1 lasting
      · by_cases pinholes : net.mapper.Pinholes input
        · exact h.mapped m ((safe.pinholes pinholes).2.1 ▸ found) lasting
        · obtain rfl := Option.some.inj (taken.symm.trans found)
          exact grants new granted pinholes lasting }

theorem draws_length (draws : Draws) (now : UInt64) :
    (draws.env home now).nonce.length = 12 ∧ (draws.env home now).nonceV6.length = 12 :=
  ⟨draws.nonce_length, draws.nonceV6_length⟩

theorem agreed_timer {now : UInt64} (h : Agreed home config gateway octets net)
    (honest : gateway.Earnest) (client : config.internalIp = .v4 clientIp)
    (at_ : config.gateway.port = pcpPort) (timely : Timely (leaseOf gateway) net now) (draws : Draws) :
    Agreed home config gateway octets (homeStep home net (.timer now draws)).1 := by
  have waited := h.wait timely
  have learned : net.mapper.Learned (· = .v4 octets) := fun mapped found protocol =>
    (h.mapped mapped found (by rw [protocol]; decide)).1
  exact agreed_step (.timer (draws.env home now)) waited honest client at_ (draws_length draws now)
    (PortMap.PortMapper.speaks_onTimer net.mapper (draws.env home now) learned h.phase) rfl
    (fun m granted => by cases granted)

omit [PortRng R] in
/-- An answer that is taken for a mapping is one the NAT honours. -/
theorem backs_of_answer {env : PortMapEnv} {item : InFlight} {m : PortMap.Mapped}
    (h : Agreed home config gateway octets net)
    (now : env.now = home.base + item.arrival.toNat)
    (truth : Tells net.mapper (.v4 octets) (fun port secs => Backs (leaseOf gateway) ⟨home.host, config.internalPort⟩
      net.clock net.nat port (item.arrival.toNat + fromSecs secs)) item.payload)
    (granted : net.mapper.Grants (.datagram env item.source item.payload) m)
    (other : ¬ net.mapper.Pinholes (.datagram env item.source item.payload)) :
    m.external.ip = .v4 octets ∧ ∃ ends, m.grantedAt + m.lease ≤ home.base + ends ∧
      Backs (leaseOf gateway) ⟨home.host, config.internalPort⟩ net.clock net.nat m.external.port ends := by
  cases granted with
  | pcp awaited near parsed nonce accepted =>
    next response =>
    have apart : response.nonce ≠ net.mapper.nonceV6 := by
      intro same
      refine other ⟨near, ?_⟩
      rw [PortMap.PortMapper.pinholeResponse, parsed, Option.filter_some, if_pos (by simpa using same)]
      rfl
    obtain ⟨ip, backed⟩ := truth.pcp response parsed nonce apart accepted
    refine ⟨ip, item.arrival.toNat + fromSecs response.lifetime, Nat.le_of_eq ?_, backed⟩
    rw [now, Nat.add_assoc]
  | natPmp awaited near shape accepted =>
    have known := h.phase
    rw [awaited] at known
    refine ⟨known, item.arrival.toNat + fromSecs (Bytes.toNat (field 12 4 item.payload)), Nat.le_of_eq ?_,
      truth.natPmp shape.1 shape.2 accepted⟩
    rw [now, Nat.add_assoc]

theorem agreed_deliver (h : Agreed home config gateway octets net)
    (honest : gateway.Earnest) (client : config.internalIp = .v4 clientIp)
    (at_ : config.gateway.port = pcpPort) (room : ∀ item ∈ net.inFlight.head?, Room (leaseOf gateway) item.arrival)
    (draws : Draws) : Agreed home config gateway octets (homeStep home net (.deliver draws)).1 := by
  unfold homeStep
  dsimp only
  split
  · exact h
  next item rest next =>
    have here : item ∈ net.inFlight := by
      rw [next]
      exact List.mem_cons_self ..
    have popped := h.pop next (room item (by rw [next]; rfl))
    have truth := (h.answers item here).imp (fun _ _ backs => backs.later (h.arrivals item here).1)
    exact agreed_step (.datagram (draws.env home item.arrival) item.source item.payload) popped honest client at_
      (draws_length draws item.arrival)
      (PortMap.PortMapper.speaks_onDatagram net.mapper (draws.env home item.arrival) item.source item.payload h.phase
        truth.external) rfl
      (fun m granted other _ => backs_of_answer popped rfl truth granted other)

theorem agreed_tcp {now : UInt64} (h : Agreed home config gateway octets net)
    (honest : gateway.Earnest) (client : config.internalIp = .v4 clientIp)
    (at_ : config.gateway.port = pcpPort) (timely : Timely (leaseOf gateway) net now) (draws : Draws) (event : TcpEvent) :
    Agreed home config gateway octets (homeStep home net (.tcp now draws event)).1 := by
  refine agreed_step (.tcp (draws.env home now) event) (h.wait timely) honest client at_ (draws_length draws now)
    (PortMap.PortMapper.speaks_onTcpEvent net.mapper (draws.env home now) event h.phase) rfl ?_
  intro m granted _ other
  cases granted
  exact absurd rfl other

theorem agreed_homeStep {input : HomeInput} (h : Agreed home config gateway octets net)
    (honest : gateway.Earnest) (client : config.internalIp = .v4 clientIp)
    (at_ : config.gateway.port = pcpPort) (fits : Fits ⟨home.host, config.internalPort⟩ (leaseOf gateway) net input) :
    Agreed home config gateway octets (homeStep home net input).1 := by
  cases input with
  | timer now draws => exact agreed_timer h honest client at_ fits draws
  | deliver draws => exact agreed_deliver h honest client at_ fits draws
  | lost =>
    unfold homeStep
    dsimp only
    split
    · exact h
    next item rest next => exact h.pop next (fits item (by rw [next]; rfl))
  | tcp now draws event => exact agreed_tcp h honest client at_ fits draws event
  | traffic c =>
    obtain ⟨decent, timely⟩ := fits
    unfold homeStep
    dsimp only
    split
    · exact h
    next after called =>
      cases time : c.time with
      | none => exact h.call (fun now here => by rw [time] at here; cases here) decent called
      | some now =>
        have waited := h.wait (timely now time)
        exact waited.call (fun now' here => by rw [time] at here; exact (Option.some.inj here).symm) decent called

end

/-! ### Runs -/

/-- A home before anything has happened. -/
def freshHome {R : Type} [PortRng R] (config : PortMapConfig) (platform : Platform) (start : Instant)
    (gateway : GatewayConfig) (natConfig : NatConfig) (octets : BitVec 32) (rngSeed clock : UInt64)
    (firewall : Option FirewallBox) : HomeNet R where
  clock := clock
  mapper := .new config platform start
  gateway := .new gateway config.gateway.ip
  nat := .new natConfig (.v4 octets) rngSeed
  firewall := firewall
  inFlight := []

/-- Over every run of the mapper against a gateway that grants in earnest and has UPnP off, with answers delayed or lost
and other traffic through the NAT: a mapping held from PCP or NAT-PMP names the external address of the NAT, and until it
runs out, less the delay, whoever sends to it reaches the mapper's socket. -/
theorem lease_agreement {R : Type} [PortRng R] {home : Home} {config : PortMapConfig} {platform : Platform}
    {start : Instant} {gateway : GatewayConfig} {natConfig : NatConfig} {octets clientIp : BitVec 32}
    {rngSeed clock : UInt64} {firewall : Option FirewallBox} {inputs : List HomeInput}
    (honest : gateway.Earnest) (client : config.internalIp = .v4 clientIp)
    (at_ : config.gateway.port = pcpPort) (room : Room (leaseOf gateway) clock)
    (fits : Meets (homeStep home) (Fits ⟨home.host, config.internalPort⟩ (leaseOf gateway))
      (freshHome (R := R) config platform start gateway natConfig octets rngSeed clock firewall) inputs) :
    let net := (run (homeStep home)
      (freshHome (R := R) config platform start gateway natConfig octets rngSeed clock firewall) inputs).1
    ∀ m, net.mapper.mapped = some m → m.protocol ≠ .upnp → m.external.ip = net.nat.externalIp ∧
      ∀ now : UInt64, net.clock ≤ now → home.base + now.toNat + gatewayDelay.toNat ≤ m.grantedAt + m.lease →
        ∀ src, net.nat.inbound now src m.external = some (net.nat, .ok ⟨home.host, config.internalPort⟩) := by
  intro net m found lasting
  have fresh : Agreed home config gateway octets
      (freshHome (R := R) config platform start gateway natConfig octets rngSeed clock firewall) := by
    have sound : PortMap.PortMapper.Sound config (.new config platform start) [] :=
      ⟨rfl, fun _ held => (by cases held), fun pcp => (by cases pcp)⟩
    refine ⟨⟨[], sound⟩, ⟨rfl, rfl⟩, rfl, rfl, rfl, room, .nil, ?_, ?_, ?_, trivial, fun _ held => (by cases held)⟩
    · exact fun _ member => absurd member List.not_mem_nil
    · exact fun waiting => absurd rfl waiting
    · exact fun _ member => absurd member List.not_mem_nil
  have h : Agreed home config gateway octets net :=
    run_invariant (P := Agreed home config gateway octets) fresh
      (fun _ _ agreed fits => agreed_homeStep agreed honest client at_ fits) inputs fits
  obtain ⟨ip, ends, within, expiry, long, _, pinned⟩ := h.mapped m found lasting
  refine ⟨ip.trans h.external.symm, fun now order before src => ?_⟩
  have live : now ≤ expiry := by
    have reach := Nat.le_trans before within
    rw [Nat.add_assoc] at reach
    exact UInt64.le_iff_toNat_le.mpr (Nat.le_of_add_le_add_right ((Nat.le_of_add_le_add_left reach).trans long))
  exact (pinned (UInt64.le_trans order live)).inbound live src rfl

def attic : Home := ⟨0, .v4 0x0a000002, fun _ => 49152⟩

def atticMapper : PortMapConfig := ⟨⟨.v4 0x0a000001, 5351⟩, 51000, .v4 0x0a000002, none⟩

/-- A gateway with PCP only, and short leases. -/
def atticGateway : GatewayConfig := ⟨.grant, .off, .off, none, fromSecs 120⟩

def atticDraws : Draws := ⟨List.replicate 12 7, List.replicate 12 9, none, rfl, rfl⟩

/-- The mapper asks and is answered; a stranger comes by. -/
def evening : List HomeInput :=
  [.timer 1000 atticDraws, .deliver atticDraws, .traffic (.inbound 2000000 ⟨.v4 0x01010101, 53⟩ ⟨.v4 0xcb007109, 51000⟩)]

def atticNet : HomeNet Unit := freshHome atticMapper ⟨0, [true], []⟩ 0 atticGateway everySecond 0xcb007109 1 0 none

theorem lease_agreement_evening : (run (homeStep attic) atticNet evening).1.mapper.mapped.isSome ∧
    ∀ m, (run (homeStep attic) atticNet evening).1.mapper.mapped = some m → ∀ src,
      (run (homeStep attic) atticNet evening).1.nat.inbound 100000000000 src m.external =
        some ((run (homeStep attic) atticNet evening).1.nat, .ok ⟨.v4 0x0a000002, 51000⟩) := by
  have fits :
      Meets (homeStep attic) (Fits ⟨attic.host, atticMapper.internalPort⟩ (leaseOf atticGateway)) atticNet evening := by
    refine ⟨⟨by decide, fun _ member => absurd member List.not_mem_nil, by unfold Room; decide⟩, fun item next => ?_,
      ⟨trivial, fun now here => ?_⟩, trivial⟩
    · have answered :
          (homeStep attic atticNet (.timer 1000 atticDraws)).1.inFlight.head?.map (·.arrival) = some 1001000 := rfl
      rw [Option.mem_def.mp next, Option.map_some] at answered
      rw [Option.some.inj answered]
      unfold Room
      decide
    · obtain rfl := Option.some.inj here
      have quiet :
          (homeStep attic (homeStep attic atticNet (.timer 1000 atticDraws)).1 (.deliver atticDraws)).1.inFlight = [] :=
        rfl
      refine ⟨by decide, fun item member => ?_, by unfold Room; decide⟩
      rw [quiet] at member
      cases member
  have held : (run (homeStep attic) atticNet evening).1.mapper.mapped =
      some ⟨.pcp, ⟨.v4 0xcb007109, 51000⟩, fromSecs 120, 1001000⟩ := by
    rfl
  have agreement := lease_agreement (R := Unit) ⟨by decide, by decide, rfl⟩ rfl rfl (by unfold Room; decide) fits
  refine ⟨by rw [held]; rfl, fun m found => ?_⟩
  obtain rfl := Option.some.inj (held.symm.trans found)
  exact (agreement _ held (by decide)).2 100000000000 (by decide) (by decide)

end Lightbringer.Overlay.Sim
