import Lightbringer.Overlay.Sim.NatChain
import Lightbringer.Overlay.Sim.WorldActs

/-!
# Answers get back in the simulated world

Whatever runs on the hosts and whatever the network loses, repeats or delays: what a host sent from behind its NATs or
its firewall can be answered until a mapping of one of them idles, where no gateway programs them.
-/

namespace Lightbringer.Overlay.Sim
open Machine NatBox PortMap

variable {N G R : Type}

/-- What a datagram at `now` makes of the NATs and the firewall of a host. -/
structure OwnOnward (now : UInt64) (own own' : List (NatBox R) × Option HostV6) : Prop where
  nats : List.Forall₂ (Onward now) own.1 own'.1
  firewall : ∀ box', own'.2.bind (·.firewall) = some box' →
    ∃ box, own.2.bind (·.firewall) = some box ∧ box.Lasts now box'

namespace SimWorld

/-- What a host without a gateway owns. -/
def Owns (world : SimWorld N G R) (id : HostId) (own : List (NatBox R) × Option HostV6) : Prop :=
  ∃ net, (world.hosts.map Host.net)[id]? = some net ∧ net.own = some own

/-- What a host sent has a way back while no mapping on it idles. -/
structure Replies (world : SimWorld N G R) : Prop where
  known : ∀ sentAt id source dest len, (sentAt, .hostSend id source dest len) ∈ world.trace →
    id < world.hosts.length ∧ sentAt ≤ world.agenda.now
  plain : ∀ id own, world.Owns id own → ∀ box ∈ own.1, box.Plain
  back : ∀ id own sentAt source dest len, world.Owns id own → (sentAt, .hostSend id source dest len) ∈ world.trace →
    source.isIpv6 = false → WithinIdleOfAll own.1 sentAt world.agenda.now → ∃ src, WayBack sentAt dest src own.1 source
  opens : ∀ id own sentAt source dest len box, world.Owns id own →
    (sentAt, .hostSend id source dest len) ∈ world.trace → source.isIpv6 = true → AllV4 own.1 →
    own.2.bind (·.firewall) = some box →
    FirewallBox.Recent box.config sentAt world.agenda.now → box.Open ⟨source, dest⟩ sentAt

section
variable {world world' : SimWorld N G R} {id : HostId} {host host' : Host N G R}

theorem owns_of_host (found : world.hosts[id]? = some host) (alone : host.gateway = none) :
    world.Owns id (host.natChain, host.v6) := by
  refine ⟨host.net, ?_, Host.own_of_none alone⟩
  rw [List.getElem?_map, found, Option.map_some]

theorem Replies.quiet (replies : Replies world) (quiet : Quiet world world') : Replies world' := by
  have sent {sentAt id source dest len} (member : (sentAt, .hostSend id source dest len) ∈ world'.trace) :
      (sentAt, .hostSend id source dest len) ∈ world.trace := quiet.mem_sent rfl member
  have owns {id own} (held : world'.Owns id own) : world.Owns id own := by
    unfold Owns at held
    rw [quiet.nets] at held
    exact held
  refine ⟨fun sentAt id source dest len member => ?_, fun id own held => replies.plain id own (owns held),
    fun id own sentAt source dest len held member v4 within => ?_,
    fun id own sentAt source dest len box held member v6 nats walled recent => ?_⟩
  · rw [quiet.length, quiet.now]
    exact replies.known sentAt id source dest len (sent member)
  · exact replies.back id own sentAt source dest len (owns held) (sent member) v4 (quiet.now ▸ within)
  · exact replies.opens id own sentAt source dest len box (owns held) (sent member) v6 nats walled (quiet.now ▸ recent)

/-- Time goes on. -/
theorem Replies.later {agenda : Agenda UInt64 EventKind} (replies : Replies world)
    (forward : world.agenda.now ≤ agenda.now) : Replies (world.putAgenda agenda) := by
  refine ⟨fun sentAt id source dest len member => ?_, replies.plain,
    fun id own sentAt source dest len held member v4 within => ?_,
    fun id own sentAt source dest len box held member v6 nats walled recent => ?_⟩
  · obtain ⟨here, before⟩ := replies.known sentAt id source dest len member
    exact ⟨here, le_trans before forward⟩
  · obtain ⟨-, before⟩ := replies.known sentAt id source dest len member
    exact replies.back id own sentAt source dest len held member v4
      (fun box inside => (within box inside).earlier before forward)
  · obtain ⟨-, before⟩ := replies.known sentAt id source dest len member
    exact replies.opens id own sentAt source dest len box held member v6 nats walled (recent.earlier before forward)

/-- Datagrams pass the NATs or the firewall of a host. -/
theorem Replies.onward (replies : Replies world) (found : world.hosts[id]? = some host)
    (gateway : host'.gateway = host.gateway)
    (onward : host.gateway = none →
      OwnOnward world.agenda.now (host.natChain, host.v6) (host'.natChain, host'.v6)) :
    Replies (world.setHost id host') := by
  have moved {other own} (held : (world.setHost id host').Owns other own) :
      ∃ before, world.Owns other before ∧ (other = id ∧ OwnOnward world.agenda.now before own ∨ before = own) := by
    obtain ⟨net, there, present⟩ := held
    rw [nets_setHost found] at there
    split at there
    next same =>
      subst same
      obtain rfl := Option.some.inj there
      have alone := Host.alone_of_own present
      rw [Host.own_of_none alone] at present
      obtain rfl := Option.some.inj present
      exact ⟨_, owns_of_host found (gateway ▸ alone), .inl ⟨rfl, onward (gateway ▸ alone)⟩⟩
    · exact ⟨own, ⟨net, there, present⟩, .inr rfl⟩
  have length : (world.setHost id host').hosts.length = world.hosts.length := List.length_set
  refine ⟨fun sentAt id source dest len member => ?_, fun other own held => ?_,
    fun other own sentAt source dest len held member v4 within => ?_,
    fun other own sentAt source dest len box held member v6 nats walled recent => ?_⟩
  · rw [length]
    exact replies.known sentAt id source dest len member
  all_goals obtain ⟨before, there, ⟨rfl, ahead⟩ | rfl⟩ := moved held
  · exact plain_onward ahead.nats
  · exact replies.plain other before there
  · have soon := (withinIdleOfAll_onward ahead.nats).mp within
    obtain ⟨src, back⟩ := replies.back other before sentAt source dest len there member v4 soon
    exact ⟨src, back.onward ahead.nats soon⟩
  · exact replies.back other before sentAt source dest len there member v4 within
  · obtain ⟨old, stood, lasts⟩ := ahead.firewall box walled
    have recent : FirewallBox.Recent old.config sentAt world.agenda.now := lasts.config ▸ recent
    exact lasts.opens recent (replies.opens other before sentAt source dest len old there member v6
      ((allV4_onward ahead.nats).mp nats) stood recent)
  · exact replies.opens other before sentAt source dest len box there member v6 nats walled recent

/-- A way back for what a host sends. -/
def Answerable (now : UInt64) (source dest : SocketAddr) (host : Host N G R) : Prop :=
  (source.isIpv6 = false → ∃ src, WayBack now dest src host.natChain source) ∧
    (source.isIpv6 = true → AllV4 host.natChain →
      ∀ box, host.v6.bind (·.firewall) = some box → box.Open ⟨source, dest⟩ now)

theorem Replies.sent {source dest : SocketAddr} {len : Nat} (replies : Replies world)
    (found : world.hosts[id]? = some host)
    (answerable : host.gateway = none → Answerable world.agenda.now source dest host) :
    Replies (world.record (.hostSend id source dest len)) := by
  have here {own} (held : world.Owns id own) : host.gateway = none ∧ own = (host.natChain, host.v6) := by
    obtain ⟨net, there, present⟩ := held
    rw [List.getElem?_map, found, Option.map_some] at there
    obtain rfl := Option.some.inj there
    have alone := Host.alone_of_own present
    rw [Host.own_of_none alone] at present
    exact ⟨alone, (Option.some.inj present).symm⟩
  refine ⟨fun sentAt sender source' dest' len' member => ?_, replies.plain,
    fun other own sentAt source' dest' len' held member v4 within => ?_,
    fun other own sentAt source' dest' len' box held member v6 nats walled recent => ?_⟩
  all_goals rcases List.mem_append.mp member with old | new
  · exact replies.known sentAt sender source' dest' len' old
  · obtain ⟨rfl, same⟩ := Prod.mk.inj (List.mem_singleton.mp new)
    obtain ⟨rfl, -, -, -⟩ := TraceEvent.hostSend.inj same
    exact ⟨(List.getElem?_eq_some_iff.mp found).1, le_refl _⟩
  · exact replies.back other own sentAt source' dest' len' held old v4 within
  · obtain ⟨rfl, same⟩ := Prod.mk.inj (List.mem_singleton.mp new)
    obtain ⟨rfl, rfl, rfl, -⟩ := TraceEvent.hostSend.inj same
    obtain ⟨alone, rfl⟩ := here held
    exact (answerable alone).1 v4
  · exact replies.opens other own sentAt source' dest' len' box held old v6 nats walled recent
  · obtain ⟨rfl, same⟩ := Prod.mk.inj (List.mem_singleton.mp new)
    obtain ⟨rfl, rfl, rfl, -⟩ := TraceEvent.hostSend.inj same
    obtain ⟨alone, rfl⟩ := here held
    exact (answerable alone).2 v6 nats box walled

/-- The counters have nothing to do with it. -/
theorem Replies.counted {bytes : Nat} (replies : Replies world) : Replies (world.countSent id bytes) := by
  have owns {other own} (held : (world.countSent id bytes).Owns other own) : world.Owns other own := by
    obtain ⟨net, there, present⟩ := held
    rw [nets_countSent] at there
    obtain ⟨before, found, rfl⟩ := Option.map_eq_some_iff.mp there
    refine ⟨before, found, ?_⟩
    rw [← present]
    split
    · rfl
    · rfl
  have length : (world.countSent id bytes).hosts.length = world.hosts.length := List.length_modify _ _ _
  refine ⟨fun sentAt id source dest len member => ?_, fun other own held => replies.plain other own (owns held),
    fun other own sentAt source dest len held => replies.back other own sentAt source dest len (owns held),
    fun other own sentAt source dest len box held => replies.opens other own sentAt source dest len box (owns held)⟩
  rw [length]
  exact replies.known sentAt id source dest len member

/-! ### Out of a host -/

variable [SimRng R]

omit [SimRng R] in
theorem firewall_map {v6 : Option HostV6} {f : FirewallBox → FirewallBox} {box' : FirewallBox}
    (walled : (v6.map (fun v6 => { v6 with firewall := v6.firewall.map f })).bind (·.firewall) = some box') :
    ∃ box, v6.bind (·.firewall) = some box ∧ f box = box' := by
  obtain ⟨_, mapped, given⟩ := Option.bind_eq_some_iff.mp walled
  obtain ⟨side, present, rfl⟩ := Option.map_eq_some_iff.mp mapped
  obtain ⟨box, stood, made⟩ := Option.map_eq_some_iff.mp given
  exact ⟨box, Option.bind_eq_some_iff.mpr ⟨side, present, stood⟩, made⟩

theorem replies_transmit {source dest : SocketAddr} (payload : List UInt8) (replies : Replies world)
    (found : world.hosts[id]? = some host)
    (answerable : host.gateway = none → Answerable world.agenda.now source dest host) :
    Replies (transmit id source dest payload world) := by
  rcases transmit_cases id source dest payload world with unsent | sent
  · exact replies.quiet unsent
  · exact (replies.sent found answerable).counted.quiet sent

theorem replies_routeOut {source dest : SocketAddr} {payload : List UInt8} (replies : Replies world)
    (found : world.hosts[id]? = some host) : Replies (routeOut id source dest payload host world) := by
  have own (alone : host.gateway = none) : ∀ box ∈ host.natChain, box.Plain :=
    replies.plain id _ (owns_of_host found alone)
  unfold routeOut
  dsimp only
  split
  next v6 =>
    refine replies_transmit payload (replies.onward found ?_ ?_) (setHost_self found) ?_
    · rfl
    · intro alone
      refine ⟨onward_chain_refl (own alone) world.agenda.now, fun box' walled => ?_⟩
      obtain ⟨box, stood, rfl⟩ := firewall_map walled
      exact ⟨box, stood, FirewallBox.lasts_outbound⟩
    · refine fun _ => ⟨fun v4 => ?_, fun _ _ box' walled => ?_⟩
      · rw [v6] at v4
        cases v4
      · obtain ⟨box, -, rfl⟩ := firewall_map walled
        exact FirewallBox.open_outbound
  next v4 =>
    have others := traverse_events world.agenda.now id dest 0 source host.natChain
    have spec (alone : host.gateway = none) := traverse_spec world.agenda.now id dest (own alone) 0 source
    generalize traverse world.agenda.now id dest 0 source host.natChain = passed at others spec
    obtain ⟨chain, events, result⟩ := passed
    dsimp only at others spec ⊢
    have moved : Replies (world.setHost id { host with natChain := chain }) :=
      replies.onward found rfl (fun alone => ⟨(spec alone).1, fun box walled => ⟨box, walled, .refl _ box⟩⟩)
    have told := moved.quiet (quiet_foldl_record others _)
    have here : (events.foldl record (world.setHost id { host with natChain := chain })).hosts[id]? =
        some { host with natChain := chain } := by
      rw [hosts_foldl_record]
      exact setHost_self found
    split
    next external =>
      refine replies_transmit payload told here (fun alone => ⟨fun _ => ⟨source, ?_⟩, fun v6 nats => ?_⟩)
      · rw [(quiet_foldl_record others _).now]
        exact (spec alone).2 external rfl
      · rw [((spec alone).2 external rfl).v4 (Bool.eq_false_iff.mpr v4) nats] at v6
        cases v6
    · exact told

/-! ### Into a host -/

omit [SimRng R] in
theorem screen_onward (id : HostId) (now : UInt64) (src dst : SocketAddr) {host : Host N G R}
    (plain : ∀ box ∈ host.natChain, box.Plain) :
    OwnOnward now (host.natChain, host.v6)
      ((screen now id src dst host).1.natChain, (screen now id src dst host).1.v6) := by
  unfold screen
  split
  · split
    · exact ⟨onward_chain_refl plain now, fun box walled => ⟨box, walled, .refl now box⟩⟩
    next box stood =>
      have kept : ∀ box', (host.v6.map (fun v6 => { v6 with firewall := some (box.inbound now src dst).1 })).bind
          (·.firewall) = some box' → ∃ before, host.v6.bind (·.firewall) = some before ∧ before.Lasts now box' := by
        intro box' walled
        obtain ⟨_, mapped, given⟩ := Option.bind_eq_some_iff.mp walled
        obtain ⟨_, _, rfl⟩ := Option.map_eq_some_iff.mp mapped
        obtain rfl := Option.some.inj given
        exact ⟨box, stood, FirewallBox.lasts_inbound⟩
      dsimp only
      split
      all_goals exact ⟨onward_chain_refl plain now, kept⟩
  · exact ⟨onward_enter id src plain 0 dst, fun box walled => ⟨box, walled, .refl now box⟩⟩

theorem replies_act (replies : Replies world) (act : Act world world') : Replies world' := by
  rcases act.cases with quiet | ⟨id, host, src, dst, found, rfl⟩ | ⟨id, host, source, dest, payload, found, rfl⟩
  · exact replies.quiet quiet
  · refine replies.onward found (screen_keeps id _ src dst host).1 (fun alone => ?_)
    exact screen_onward id world.agenda.now src dst (replies.plain id _ (owns_of_host found alone))
  · exact replies_routeOut replies found

/-! ### Runs -/

/-- Time does not go back, and a host joins behind NATs that nobody has used. -/
def FreshNats (world : SimWorld N G R) : WorldInput N G R → Prop
  | .tick target => world.agenda.now ≤ target
  | .join natChain _ _ _ _ _ => ∀ box ∈ natChain, ∃ config externalIp rngSeed, box = NatBox.new config externalIp rngSeed
  | _ => True

omit [SimRng R] in
theorem Replies.joined {newcomer : Host N G R} {owners : Std.TreeMap Nat HostId} (replies : Replies world)
    (plain : ∀ own, newcomer.net.own = some own → ∀ box ∈ own.1, box.Plain) :
    Replies { world with hosts := world.hosts ++ [newcomer], ipOwner := owners } := by
  have old {id : HostId} {own : List (NatBox R) × Option HostV6}
      (held : Owns { world with hosts := world.hosts ++ [newcomer], ipOwner := owners } id own)
      (inside : id < world.hosts.length) : world.Owns id own := by
    obtain ⟨net, there, present⟩ := held
    have there : ((world.hosts ++ [newcomer]).map Host.net)[id]? = some net := there
    rw [List.map_append, List.getElem?_append_left (by rwa [List.length_map])] at there
    exact ⟨net, there, present⟩
  have known {sentAt id source dest len} (member : (sentAt, .hostSend id source dest len) ∈ world.trace) :
      id < world.hosts.length := (replies.known sentAt id source dest len member).1
  refine ⟨fun sentAt id source dest len member => ?_, fun id own held => ?_,
    fun id own sentAt source dest len held member => ?_,
    fun id own sentAt source dest len box held member => ?_⟩
  · obtain ⟨inside, before⟩ := replies.known sentAt id source dest len member
    exact ⟨List.length_append ▸ Nat.lt_add_right _ inside, before⟩
  · by_cases inside : id < world.hosts.length
    · exact replies.plain id own (old held inside)
    · obtain ⟨net, there, present⟩ := held
      have there : ((world.hosts ++ [newcomer]).map Host.net)[id]? = some net := there
      rw [List.map_append, List.getElem?_append_right (by rwa [List.length_map, ← Nat.not_lt])] at there
      have last := List.mem_of_getElem? there
      rw [List.map_singleton, List.mem_singleton] at last
      exact plain own (last ▸ present)
  · exact replies.back id own sentAt source dest len (old held (known member)) member
  · exact replies.opens id own sentAt source dest len box (old held (known member)) member

omit [SimRng R] in
theorem replies_new (base : Instant) (rng : R) : Replies (new base rng : SimWorld N G R) :=
  ⟨fun _ _ _ _ _ member => absurd member List.not_mem_nil,
    fun _ _ held => (by obtain ⟨_, there, _⟩ := held; cases there),
    fun _ _ _ _ _ _ _ member => absurd member List.not_mem_nil,
    fun _ _ _ _ _ _ _ _ member => absurd member List.not_mem_nil⟩

theorem replies_kept : Kept FreshNats (fun (world : SimWorld N G R) _ => Replies world) where
  act replies act := replies_act replies act
  idle replies forward := replies.later forward
  pop replies popped := by
    obtain ⟨tail, -, -, rfl⟩ := Agenda.pop_eq_some popped
    exact replies.later (le_max_right _ _)
  links links defaultLink replies := replies.quiet ⟨rfl, rfl, rfl⟩
  join replies fresh := by
    refine replies.joined (fun own present box member => ?_)
    rw [Host.own_of_none (Host.alone_of_own present)] at present
    obtain rfl := Option.some.inj present
    obtain ⟨config, externalIp, rngSeed, rfl⟩ := fresh box member
    exact plain_new config externalIp rngSeed

variable (lan : LanOps G R) {ops : NodeOps N}

/-- In every run, whatever a host without a gateway sent over IPv4, an answer that comes before a mapping of one of its
NATs can have idled is let in by all of them. -/
theorem answers_let_in (reports : Reports ops) {base : Instant} {rng : R} {inputs : List (WorldInput N G R)}
    (fresh : Meets (step lan ops) FreshNats (new base rng) inputs) {id : HostId} {host : Host N G R}
    {sentAt now : UInt64} {external remote : SocketAddr} {len : Nat} :
    let world := (run (step lan ops) (new base rng) inputs).1
    world.hosts[id]? = some host → host.gateway = none →
      (sentAt, .hostSend id external remote len) ∈ world.trace → external.isIpv6 = false → world.agenda.now ≤ now →
        WithinIdleOfAll host.natChain sentAt now → ∃ after internal,
          screen now id remote external host = (after, [], some internal) := by
  intro world found alone sent v4 later within
  have replies : Replies world := kept_run lan replies_kept reports (replies_new base rng) fresh
  obtain ⟨-, before⟩ := replies.known sentAt id external remote len sent
  have own := owns_of_host found alone
  obtain ⟨src, back⟩ := replies.back id _ sentAt external remote len own sent v4
    (fun box inside => (within box inside).earlier before later)
  obtain ⟨final, through⟩ := enter_of_wayBack id (replies.plain id _ own) back within 0
  refine ⟨{ host with natChain := final }, src, ?_⟩
  rw [screen, if_neg (by simp [v4]), through]

/-- A probe behind two NATs writes to the server. -/
def nested : List (WorldInput (Option Instant) Gateway Unit) :=
  [.join [quietBox, NatBox.new everySecond (.v4 0xcb00710a) 2] none none (publicEnv 0x0a000002 51000) (.probe [])
      [.v4 0xcb00710a],
    .join [] none none (publicEnv 0xc6336401 8001) (.probe []) [.v4 0xc6336401],
    .probeSend 0 0 server [1]]

def nestedWorld : SimWorld (Option Instant) Gateway Unit := (run (step Gateway.lan pinger) (new 0 ()) nested).1

theorem answers_let_in_nested : ∃ host after internal, nestedWorld.hosts[0]? = some host ∧
    screen 5 0 server ⟨.v4 0xcb00710a, 40000⟩ host = (after, [], some internal) := by
  have reports : Reports pinger := fun _ _ _ member => absurd member List.not_mem_nil
  have fresh : Meets (step Gateway.lan pinger) FreshNats (new 0 ()) nested := by
    refine ⟨List.forall_mem_cons.mpr ⟨⟨everySecond, _, _, rfl⟩, List.forall_mem_singleton.mpr ?_⟩, ?_, trivial, trivial⟩
    · exact ⟨everySecond, _, _, rfl⟩
    · exact fun _ member => absurd member List.not_mem_nil
  obtain ⟨host, found⟩ : ∃ host, nestedWorld.hosts[0]? = some host := ⟨_, rfl⟩
  have net : nestedWorld.hosts[0]?.map (fun host => (host.gateway, host.natChain.map NatBox.config)) =
      some (none, [everySecond, everySecond]) := rfl
  rw [found, Option.map_some] at net
  obtain ⟨alone, configs⟩ := Prod.mk.inj (Option.some.inj net)
  have soon : WithinIdleOfAll host.natChain 0 5 := by
    intro box member
    have config := List.mem_map_of_mem (f := NatBox.config) member
    rw [configs] at config
    have same : box.config = everySecond := (List.mem_pair.mp config).elim id id
    rw [same]
    exact ⟨by decide, by decide⟩
  obtain ⟨after, internal, letIn⟩ := answers_let_in Gateway.lan reports fresh found alone
    (List.mem_of_getElem? (i := 2) rfl) rfl (by decide) soon
  exact ⟨host, after, internal, found, letIn⟩

/-- The same over IPv6, where a firewall lets in an answer before the flow can have idled, and the address is kept. -/
theorem answers_let_in_v6 (reports : Reports ops) {base : Instant} {rng : R} {inputs : List (WorldInput N G R)}
    (fresh : Meets (step lan ops) FreshNats (new base rng) inputs) {id : HostId} {host : Host N G R}
    {sentAt now : UInt64} {source remote : SocketAddr} {len : Nat} :
    let world := (run (step lan ops) (new base rng) inputs).1
    world.hosts[id]? = some host → host.gateway = none → AllV4 host.natChain →
      (sentAt, .hostSend id source remote len) ∈ world.trace → source.isIpv6 = true → world.agenda.now ≤ now →
        (∀ box, host.v6.bind (·.firewall) = some box → FirewallBox.Recent box.config sentAt now) →
          ∃ after, screen now id remote source host = (after, [], some source) := by
  intro world found alone nats sent v6 later recent
  have replies : Replies world := kept_run lan replies_kept reports (replies_new base rng) fresh
  obtain ⟨-, before⟩ := replies.known sentAt id source remote len sent
  unfold screen
  rw [if_pos v6]
  cases walled : host.v6.bind (·.firewall) with
  | none => exact ⟨host, rfl⟩
  | some box =>
    have early := (recent box walled).earlier before later
    have opens := replies.opens id _ sentAt source remote len box (owns_of_host found alone) sent v6 nats walled early
    have letIn := FirewallBox.inbound_of_open opens (recent box walled)
    dsimp only
    generalize box.inbound now remote source = entered at letIn
    obtain ⟨box', verdict⟩ := entered
    obtain rfl : verdict = .ok () := letIn
    exact ⟨_, rfl⟩

def v6Env (octets : BitVec 128) (port : UInt16) : HostEnvState Unit :=
  ⟨.v4 0x0a000002, some (.v6 octets), [some ⟨.v6 octets, port⟩], [], [], [], [], 0, (), ephemeralPortStart⟩

/-- A probe behind a firewall writes over IPv6, and a stranger to the probe. -/
def walled : List (WorldInput (Option Instant) Gateway Unit) :=
  [.join [] (some ⟨.v6 2, some (.new .standard)⟩) none (v6Env 2 443) (.probe []) [.v6 2],
    .join [] (some ⟨.v6 9, none⟩) none (v6Env 9 8001) (.probe []) [.v6 9],
    .probeSend 0 0 ⟨.v6 9, 8001⟩ [1], .probeSend 1 0 ⟨.v6 2, 53⟩ [1], .tick 10000000, .tick 20000000]

def walledWorld : SimWorld (Option Instant) Gateway Unit := (run (step Gateway.lan pinger) (new 0 ()) walled).1

theorem answers_let_in_v6_walled : ∃ host after, walledWorld.hosts[0]? = some host ∧
    screen 20000000 0 ⟨.v6 9, 8001⟩ ⟨.v6 2, 443⟩ host = (after, [], some ⟨.v6 2, 443⟩) := by
  have reports : Reports pinger := fun _ _ _ member => absurd member List.not_mem_nil
  have fresh : Meets (step Gateway.lan pinger) FreshNats (new 0 ()) walled := by
    refine ⟨fun _ member => absurd member List.not_mem_nil, fun _ member => absurd member List.not_mem_nil, trivial,
      trivial, ?_, ?_, trivial⟩
    · show (_ : UInt64) ≤ 10000000
      decide
    · show (_ : UInt64) ≤ 20000000
      decide
  obtain ⟨host, found⟩ : ∃ host, walledWorld.hosts[0]? = some host := ⟨_, rfl⟩
  have net : walledWorld.hosts[0]?.map (fun host => (host.gateway, host.natChain,
      (host.v6.bind (·.firewall)).map FirewallBox.config)) = some (none, [], some .standard) := rfl
  rw [found, Option.map_some] at net
  obtain ⟨alone, chain, config⟩ := Prod.mk.inj (Option.some.inj net) |>.imp_right Prod.mk.inj
  have soon : ∀ box, host.v6.bind (·.firewall) = some box → FirewallBox.Recent box.config 0 20000000 := by
    intro box stood
    rw [stood, Option.map_some] at config
    rw [Option.some.inj config]
    exact ⟨by decide, by decide⟩
  obtain ⟨after, letIn⟩ := answers_let_in_v6 Gateway.lan reports fresh found alone
    (by rw [chain]; exact fun _ member => absurd member List.not_mem_nil) (List.mem_of_getElem? (i := 0) rfl) rfl
    (by decide) soon
  exact ⟨host, after, found, letIn⟩

end

end SimWorld

end Lightbringer.Overlay.Sim
