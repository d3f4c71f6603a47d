import Lightbringer.Overlay.Sim.WorldActs
import Mathlib.Algebra.BigOperators.Ring.List

/-!
# The simulated world keeps account of datagrams

Each datagram that is put on a link is lost there, or arrives, or is under way, and a second time only where it was
duplicated. A price for each event of the trace and for each arrival that comes out right on every link comes out right
over every run.
-/

namespace Lightbringer.Overlay.Sim
open Machine PortMap

variable {N G R : Type}

def TraceEvent.isDropped : TraceEvent → Bool
  | .linkDropped .. => true
  | _ => false

def TraceEvent.isDuplicated : TraceEvent → Bool
  | .linkDuplicated .. => true
  | _ => false

/-- A datagram of these addresses and this length is sent. -/
def TraceEvent.sends (src dest : SocketAddr) (len : Nat) : TraceEvent → Bool
  | .hostSend _ src' dest' len' => src' = src ∧ dest' = dest ∧ len' = len
  | _ => false

/-- A datagram of these addresses and this length arrives. -/
def EventKind.carries (src dest : SocketAddr) (len : Nat) : EventKind → Bool
  | .delivery _ src' dest' payload _ => src' = src ∧ dest' = dest ∧ payload.length = len
  | _ => false

/-- What it does to the number of datagrams that are to arrive. -/
def TraceEvent.weight : TraceEvent → ℤ
  | .hostSend .. => 1
  | .linkDuplicated .. => 1
  | .linkDropped .. => -1
  | _ => 0

/-- A price of what the trace tells, and one of what arrives, under which no link makes a loss. -/
structure Fair (told : TraceEvent → ℤ) (arrives : EventKind → ℤ) : Prop where
  silent : ∀ event : TraceEvent, event.onWire = false → told event = 0
  other : ∀ kind : EventKind, kind.isDelivery = false → arrives kind = 0
  lost : ∀ (link : Link) src dest len,
    0 ≤ told (.hostSend link.sender src dest len) + told (.linkDropped link.sender link.owner len)
  once : ∀ (link : Link) src dest payload via,
    arrives (.delivery link.owner src dest payload via) ≤ told (.hostSend link.sender src dest payload.length)
  twice : ∀ (link : Link) src dest payload via via',
    arrives (.delivery link.owner src dest payload via) + arrives (.delivery link.owner src dest payload via') ≤
      told (.hostSend link.sender src dest payload.length) + told (.linkDuplicated link.sender link.owner)

namespace SimWorld

/-- What the trace tells, less what is under way. -/
def balance (told : TraceEvent → ℤ) (arrives : EventKind → ℤ) (world : SimWorld N G R) : ℤ :=
  (world.trace.map (fun entry => told entry.2)).sum - (world.agenda.entries.map (fun entry => arrives entry.event)).sum

/-- No host has a gateway, which answers with datagrams of its own. -/
def Ungated (world : SimWorld N G R) : Prop :=
  ∀ (id : HostId) host, world.hosts[id]? = some host → host.gateway = none

/-- Without gateways, the balance does not fall. -/
def Earns (told : TraceEvent → ℤ) (arrives : EventKind → ℤ) (world world' : SimWorld N G R) : Prop :=
  Ungated world → Ungated world' ∧ balance told arrives world ≤ balance told arrives world'

section
variable {told : TraceEvent → ℤ} {arrives : EventKind → ℤ} {world world' world'' : SimWorld N G R} {id : HostId}
  {host host' : Host N G R}

theorem Earns.refl (world : SimWorld N G R) : Earns told arrives world world := fun ungated => ⟨ungated, le_refl _⟩

theorem Earns.trans (one : Earns told arrives world world') (two : Earns told arrives world' world'') :
    Earns told arrives world world'' := by
  intro ungated
  obtain ⟨between, first⟩ := one ungated
  obtain ⟨finally_, second⟩ := two between
  exact ⟨finally_, first.trans second⟩

theorem balance_record (event : TraceEvent) :
    balance told arrives (world.record event) = balance told arrives world + told event := by
  unfold balance record
  dsimp only
  rw [List.map_append, List.sum_append, List.map_singleton, List.sum_singleton]
  ring

theorem balance_push {agenda : Agenda UInt64 EventKind} {due : UInt64} {kind : EventKind}
    (pushed : world'.agenda = agenda.push due kind) (before : world.agenda = agenda)
    (trace : world'.trace = world.trace) :
    balance told arrives world' = balance told arrives world - arrives kind := by
  have perm : (agenda.push due kind).entries.Perm _ := Agenda.push_perm
  have sums := (perm.map (fun entry => arrives entry.event)).sum_eq
  rw [List.map_cons, List.sum_cons] at sums
  unfold balance
  rw [pushed, before, trace, sums]
  ring

theorem earns_record (fair : Fair told arrives) (event : TraceEvent) (off : event.onWire = false) :
    Earns told arrives world (world.record event) := by
  intro ungated
  refine ⟨ungated, ?_⟩
  rw [balance_record, fair.silent event off, add_zero]

theorem earns_foldl_record (fair : Fair told arrives) {events : List TraceEvent}
    (others : ∀ event ∈ events, event.onWire = false) (world : SimWorld N G R) :
    Earns told arrives world (events.foldl record world) :=
  List.foldlRecOn (motive := fun reached => Earns told arrives world reached) events record (.refl world)
    (fun _ earns event member => earns.trans (earns_record fair event (others event member)))

theorem earns_pushEvent (fair : Fair told arrives) {due : UInt64} {kind : EventKind} (other : kind.isDelivery = false) :
    Earns told arrives world (world.pushEvent due kind) := by
  intro ungated
  refine ⟨ungated, ?_⟩
  have pushed : balance told arrives (world.pushEvent due kind) = balance told arrives world - arrives kind :=
    balance_push rfl rfl rfl
  rw [pushed, fair.other kind other, sub_zero]

theorem earns_setHost (found : world.hosts[id]? = some host) (same : host.gateway = none → host'.gateway = none) :
    Earns told arrives world (world.setHost id host') := by
  intro ungated
  refine ⟨fun other there held => ?_, le_refl _⟩
  have held : (world.hosts.set id host')[other]? = some there := held
  rw [List.getElem?_set] at held
  split at held
  · split at held
    · rw [← Option.some.inj held]
      exact same (ungated id host found)
    · cases held
  · exact ungated other there held

theorem ungated_countSent {sender : HostId} {bytes : Nat} (ungated : Ungated world) :
    Ungated (world.countSent sender bytes) := by
  intro other there held
  have held : (world.hosts.modify sender _)[other]? = some there := held
  rw [List.getElem?_modify] at held
  obtain ⟨before, found, rfl⟩ := Option.map_eq_some_iff.mp held
  split
  · exact ungated other before found
  · exact ungated other before found

/-! ### Out of a host -/

variable [SimRng R]

/-- A copy of a datagram is paid when it arrives. -/
theorem carry_spec (told : TraceEvent → ℤ) (arrives : EventKind → ℤ) (link : Link) (params : LinkParams)
    (src dest : SocketAddr) (payload : List UInt8) (world : SimWorld N G R) :
    (carry link params src dest payload world).hosts = world.hosts ∧ ∃ via,
      balance told arrives (carry link params src dest payload world) =
        balance told arrives world - arrives (.delivery link.owner src dest payload via) := by
  obtain ⟨rng, horizon, due, via, carried⟩ := carry_cases link params src dest payload world
  rw [carried]
  exact ⟨rfl, via, balance_push rfl rfl rfl⟩

/-- A link is never paid more than the sender was. -/
theorem cross_spec (fair : Fair told arrives) (link : Link) (params : LinkParams) (src dest : SocketAddr)
    (payload : List UInt8) (world : SimWorld N G R) :
    (cross link params src dest payload world).hosts = world.hosts ∧ balance told arrives world ≤
      balance told arrives (cross link params src dest payload world) +
        told (.hostSend link.sender src dest payload.length) := by
  have drawn (rng : R) : balance told arrives (world.withRng rng) = balance told arrives world := rfl
  obtain ⟨rng, lost | twice | once⟩ := cross_cases link params src dest payload world
  · rw [lost]
    refine ⟨rfl, ?_⟩
    have loss := fair.lost link src dest payload.length
    rw [balance_record, drawn]
    omega
  · rw [twice]
    obtain ⟨hosts, via, first⟩ := carry_spec told arrives link params src dest payload
      ((world.withRng rng).record (.linkDuplicated link.sender link.owner))
    obtain ⟨hosts', via', second⟩ := carry_spec told arrives link params src dest payload
      (carry link params src dest payload ((world.withRng rng).record (.linkDuplicated link.sender link.owner)))
    refine ⟨hosts'.trans hosts, ?_⟩
    have price := fair.twice link src dest payload via via'
    rw [second, first, balance_record, drawn]
    omega
  · rw [once]
    obtain ⟨hosts, via, only⟩ := carry_spec told arrives link params src dest payload (world.withRng rng)
    refine ⟨hosts, ?_⟩
    have price := fair.once link src dest payload via
    rw [only, drawn]
    omega

theorem earns_transmit (fair : Fair told arrives) {src dest : SocketAddr} {payload : List UInt8} :
    Earns told arrives world (transmit id src dest payload world) := by
  unfold transmit
  split
  · exact earns_record fair _ rfl
  next owner _ =>
    dsimp only
    split
    · exact earns_record fair _ rfl
    · split
      · exact earns_record fair _ rfl
      · intro ungated
        obtain ⟨hosts, paid⟩ := cross_spec fair ⟨id, owner⟩ (world.links.getD ⟨id, owner⟩ world.defaultLink) src dest
          payload ((world.record (.hostSend id src dest payload.length)).countSent id payload.length)
        have between : Ungated ((world.record (.hostSend id src dest payload.length)).countSent id payload.length) :=
          ungated_countSent ungated
        refine ⟨fun other host found => between other host (hosts ▸ found), ?_⟩
        have counted : balance told arrives
            ((world.record (.hostSend id src dest payload.length)).countSent id payload.length) =
              balance told arrives world + told (.hostSend id src dest payload.length) := balance_record _
        rw [counted] at paid
        exact le_of_add_le_add_right paid

theorem earns_routeOut (fair : Fair told arrives) {source dest : SocketAddr} {payload : List UInt8}
    (found : world.hosts[id]? = some host) :
    Earns told arrives world (routeOut id source dest payload host world) := by
  unfold routeOut
  dsimp only
  split
  · refine Earns.trans (earns_setHost found ?_) (earns_transmit fair)
    exact fun alone => alone
  · have others := traverse_events world.agenda.now id dest 0 source host.natChain
    generalize traverse world.agenda.now id dest 0 source host.natChain = passed at others
    obtain ⟨chain, events, result⟩ := passed
    dsimp only at others ⊢
    have kept : Earns told arrives world (world.setHost id { host with natChain := chain }) :=
      earns_setHost found (by exact fun alone => alone)
    have logged := kept.trans (earns_foldl_record fair others _)
    split
    · exact logged.trans (earns_transmit fair)
    · exact logged

/-- Whatever the world does without gateways, no arrival comes for nothing. -/
theorem earns_act (fair : Fair told arrives) (act : Act world world') : Earns told arrives world world' := by
  cases act with
  | wrote found same => exact earns_setHost found (Host.alone_of_net same)
  | told off => exact earns_record fair _ off
  | woke other => exact earns_pushEvent fair other
  | answered found gateway =>
    intro ungated
    rw [ungated _ _ found] at gateway
    cases gateway
  | screened src dst found => exact earns_setHost found (fun alone => (screen_keeps _ _ src dst _).1.trans alone)
  | sent source dest payload found => exact earns_routeOut fair found

/-! ### Runs -/

/-- A host joins without a gateway. -/
def JoinsBare (_ : SimWorld N G R) : WorldInput N G R → Prop
  | .join _ _ gateway _ _ _ => gateway = none
  | _ => True

/-- Arrivals are paid for. -/
def Paid (told : TraceEvent → ℤ) (arrives : EventKind → ℤ) (world : SimWorld N G R)
    (taken : List (Agenda.Entry UInt64 EventKind)) : Prop :=
  Ungated world ∧ (taken.map (fun entry => arrives entry.event)).sum ≤ balance told arrives world

variable {taken : List (Agenda.Entry UInt64 EventKind)}

omit [SimRng R] in
theorem Paid.earns (paid : Paid told arrives world taken) (earns : Earns told arrives world world') :
    Paid told arrives world' taken := by
  obtain ⟨ungated, more⟩ := earns paid.1
  exact ⟨ungated, paid.2.trans more⟩

omit [SimRng R] in
/-- An arrival is paid by what was under way. -/
theorem Paid.pop {target : UInt64} {entry : Agenda.Entry UInt64 EventKind} {rest : Agenda UInt64 EventKind}
    (paid : Paid told arrives world taken) (popped : world.agenda.pop target = some (entry, rest)) :
    Paid told arrives (world.putAgenda rest) (taken ++ [entry]) := by
  obtain ⟨tail, found, -, rfl⟩ := Agenda.pop_eq_some popped
  obtain ⟨ungated, covered⟩ := paid
  refine ⟨ungated, ?_⟩
  unfold balance at covered ⊢
  rw [found, List.map_cons, List.sum_cons] at covered
  rw [List.map_append, List.sum_append, List.map_singleton, List.sum_singleton]
  show _ ≤ (world.trace.map _).sum - (tail.map _).sum
  omega

theorem paid_kept (fair : Fair told arrives) : Kept JoinsBare (Paid (N := N) (G := G) (R := R) told arrives) where
  act paid act := paid.earns (earns_act fair act)
  idle paid _ := paid
  pop paid popped := paid.pop popped
  links _ _ paid := paid
  join paid bare := by
    obtain ⟨ungated, covered⟩ := paid
    refine ⟨fun id host found => ?_, covered⟩
    rcases List.mem_append.mp (List.mem_of_getElem? found) with old | new
    · obtain ⟨place, before⟩ := List.mem_iff_getElem?.mp old
      exact ungated place host before
    · rw [List.mem_singleton.mp new]
      exact bare

/-- A price that no link makes a loss on comes out right over every run. -/
theorem paid_run (lan : LanOps G R) {ops : NodeOps N} (fair : Fair told arrives) (reports : Reports ops)
    {base : Instant} {rng : R} {inputs : List (WorldInput N G R)}
    (bare : Meets (step lan ops) JoinsBare (new base rng) inputs) :
    let (world, taken) := run (step lan ops) (new base rng : SimWorld N G R) inputs
    ((taken ++ world.agenda.entries).map (fun entry => arrives entry.event)).sum ≤
      (world.trace.map (fun entry => told entry.2)).sum := by
  have paid := kept_run lan (paid_kept fair) reports ⟨fun _ _ found => (by cases found), le_refl _⟩ bare
  generalize run (step lan ops) (new base rng) inputs = ran at paid
  obtain ⟨world, taken⟩ := ran
  obtain ⟨-, covered⟩ := paid
  dsimp only at covered ⊢
  unfold balance at covered
  rw [List.map_append, List.sum_append]
  omega

end

end SimWorld

/-! ### Prices -/

theorem fair_weight : Fair TraceEvent.weight (fun kind => if kind.isDelivery then 1 else 0) where
  silent event off := by cases event <;> first | rfl | cases off
  other kind no := by rw [no]; rfl
  lost _ _ _ _ := le_refl _
  once _ _ _ _ _ := le_refl _
  twice _ _ _ _ _ _ := le_refl _

theorem fair_debt : Fair (fun event => -1 * event.weight) (fun kind => -1 * if kind.isDelivery then 1 else 0) where
  silent event off := by rw [fair_weight.silent event off]; rfl
  other kind no := by rw [no]; rfl
  lost _ _ _ _ := le_refl _
  once _ _ _ _ _ := le_refl _
  twice _ _ _ _ _ _ := le_refl _

theorem fair_sends (src dest : SocketAddr) (len : Nat) :
    Fair (fun event => 2 * if event.sends src dest len then 1 else 0)
      (fun kind => if kind.carries src dest len then 1 else 0) where
  silent event off := by cases event <;> first | rfl | cases off
  other kind no := by cases kind <;> first | rfl | cases no
  lost link src' dest' len' := by
    by_cases same : src' = src ∧ dest' = dest ∧ len' = len <;> simp [TraceEvent.sends, same]
  once link src' dest' payload via := by
    by_cases same : src' = src ∧ dest' = dest ∧ payload.length = len <;>
      simp [TraceEvent.sends, EventKind.carries, same]
  twice link src' dest' payload via via' := by
    by_cases same : src' = src ∧ dest' = dest ∧ payload.length = len <;>
      simp [TraceEvent.sends, EventKind.carries, same]

theorem sum_indicator {α : Type} (p : α → Bool) (items : List α) :
    (items.map (fun item => if p item then (1 : ℤ) else 0)).sum = items.countP p := by
  induction items with
  | nil => rfl
  | cons item rest ih =>
    rw [List.map_cons, List.sum_cons, ih, List.countP_cons]
    split
    · push_cast
      ring
    · simp

theorem sum_weight (trace : List (UInt64 × TraceEvent)) : (trace.map (fun entry => entry.2.weight)).sum =
    trace.countP (·.2.isSent) + trace.countP (·.2.isDuplicated) - trace.countP (·.2.isDropped) := by
  induction trace with
  | nil => rfl
  | cons entry rest ih =>
    obtain ⟨time, event⟩ := entry
    rw [List.map_cons, List.sum_cons, ih, List.countP_cons, List.countP_cons, List.countP_cons]
    cases event <;>
      simp [TraceEvent.weight, TraceEvent.isSent, TraceEvent.isDuplicated, TraceEvent.isDropped] <;> omega

namespace SimWorld
variable [SimRng R] (lan : LanOps G R) {ops : NodeOps N}

/-- In every run without gateways, no datagram is lost or made on the way: those that hosts sent and links duplicated
are those that links dropped, those that have arrived and those under way. What arrives was sent, and at most twice as
often as it was sent. -/
theorem datagrams_conserved (reports : Reports ops) {base : Instant} {rng : R} {inputs : List (WorldInput N G R)}
    (bare : Meets (step lan ops) JoinsBare (new base rng) inputs) :
    let (world, taken) := run (step lan ops) (new base rng : SimWorld N G R) inputs
    world.trace.countP (·.2.isSent) + world.trace.countP (·.2.isDuplicated) =
        world.trace.countP (·.2.isDropped) + taken.countP (·.event.isDelivery) +
          world.agenda.entries.countP (·.event.isDelivery) ∧
      ∀ src dest len, (taken ++ world.agenda.entries).countP (·.event.carries src dest len) ≤
        2 * world.trace.countP (·.2.sends src dest len) := by
  have paid := paid_run lan fair_weight reports bare
  have owed := paid_run lan fair_debt reports bare
  have sent (src dest : SocketAddr) (len : Nat) := paid_run lan (fair_sends src dest len) reports bare
  generalize run (step lan ops) (new base rng) inputs = ran at paid owed sent
  obtain ⟨world, taken⟩ := ran
  dsimp only at paid owed sent ⊢
  have arrivals (entries : List (Agenda.Entry UInt64 EventKind)) :=
    sum_indicator (fun entry => entry.event.isDelivery) entries
  rw [arrivals, sum_weight, List.countP_append] at paid
  rw [List.sum_map_mul_left, List.sum_map_mul_left, arrivals, sum_weight, List.countP_append] at owed
  refine ⟨by omega, fun src dest len => ?_⟩
  have most := sent src dest len
  rw [sum_indicator (fun entry : Agenda.Entry UInt64 EventKind => entry.event.carries src dest len),
    List.sum_map_mul_left, sum_indicator (fun entry : UInt64 × TraceEvent => entry.2.sends src dest len)] at most
  exact_mod_cast most

theorem datagrams_conserved_pair :
    let (world, taken) := run (step Gateway.lan pinger) (new 0 ()) (pair ++ [.tick 10000000, .tick 10000000])
    world.trace.countP (·.2.isSent) = 1 ∧ taken.countP (·.event.isDelivery) = 1 ∧
      world.trace.countP (·.2.isSent) + world.trace.countP (·.2.isDuplicated) =
        world.trace.countP (·.2.isDropped) + taken.countP (·.event.isDelivery) +
          world.agenda.entries.countP (·.event.isDelivery) := by
  have reports : Reports pinger := fun _ _ _ member => absurd member List.not_mem_nil
  have bare : Meets (step Gateway.lan pinger) JoinsBare (new 0 ()) (pair ++ [.tick 10000000, .tick 10000000]) :=
    ⟨rfl, rfl, trivial, trivial, trivial⟩
  exact ⟨by decide, by decide, (datagrams_conserved Gateway.lan reports bare).1⟩

end SimWorld

/-! ### Counters -/

/-- The length of a datagram that this host sent. -/
def TraceEvent.sentBy (id : HostId) : TraceEvent → Option Nat
  | .hostSend sender _ _ len => if sender = id then some len else none
  | _ => none

namespace SimWorld

def sentLens (world : SimWorld N G R) (id : HostId) : List Nat := world.trace.filterMap (·.2.sentBy id)

/-- The counters of a host agree with the trace, which tells of hosts that have joined. -/
structure Counted (world : SimWorld N G R) : Prop where
  counters : ∀ (id : HostId) net, (world.hosts.map Host.net)[id]? = some net →
    net.sentDatagrams = (world.sentLens id).length ∧ net.sentBytes = (world.sentLens id).sum
  others : ∀ id, world.hosts.length ≤ id → world.sentLens id = []

section
variable {world world' : SimWorld N G R} {id : HostId} {host host' : Host N G R}

theorem sentLens_filter (world : SimWorld N G R) (id : HostId) :
    world.sentLens id = (world.trace.filter (·.2.isSent)).filterMap (·.2.sentBy id) := by
  rw [List.filterMap_filter]
  refine List.filterMap_congr (fun entry _ => ?_)
  obtain ⟨time, event⟩ := entry
  cases event <;> rfl

theorem Counted.quiet (counted : Counted world) (quiet : Quiet world world') : Counted world' := by
  have same (id : HostId) : world'.sentLens id = world.sentLens id := by
    rw [sentLens_filter, sentLens_filter, quiet.sends]
  refine ⟨fun id net found => ?_, fun id beyond => ?_⟩
  · rw [same]
    exact counted.counters id net (quiet.nets ▸ found)
  · rw [same]
    exact counted.others id (quiet.length ▸ beyond)

theorem Counted.moved (counted : Counted world) (found : world.hosts[id]? = some host)
    (datagrams : host'.sentDatagrams = host.sentDatagrams) (bytes : host'.sentBytes = host.sentBytes) :
    Counted (world.setHost id host') := by
  have length : (world.setHost id host').hosts.length = world.hosts.length := List.length_set
  refine ⟨fun other net there => ?_, fun other beyond => counted.others other (length ▸ beyond)⟩
  rw [nets_setHost found] at there
  split at there
  next same =>
    subst same
    obtain rfl := Option.some.inj there
    have before := counted.counters id host.net (by rw [List.getElem?_map, found, Option.map_some])
    exact ⟨datagrams.trans before.1, bytes.trans before.2⟩
  · exact counted.counters other net there

/-- What is sent is counted for its sender. -/
theorem Counted.sent {src dest : SocketAddr} {len : Nat} (counted : Counted world)
    (found : world.hosts[id]? = some host) :
    Counted ((world.record (.hostSend id src dest len)).countSent id len) := by
  have told (other : HostId) : ((world.record (.hostSend id src dest len)).countSent id len).sentLens other =
      world.sentLens other ++ if id = other then [len] else [] := by
    show (world.trace ++ [(world.agenda.now, TraceEvent.hostSend id src dest len)]).filterMap _ = _
    rw [List.filterMap_append]
    by_cases same : id = other <;> simp [sentLens, TraceEvent.sentBy, same]
  refine ⟨fun other net there => ?_, fun other beyond => ?_⟩
  · rw [nets_countSent] at there
    obtain ⟨before, held, rfl⟩ := Option.map_eq_some_iff.mp there
    obtain ⟨datagrams, bytes⟩ := counted.counters other before held
    rw [told]
    split
    · rw [List.length_append, List.sum_append, ← datagrams, ← bytes]
      exact ⟨rfl, rfl⟩
    · rw [List.append_nil]
      exact ⟨datagrams, bytes⟩
  · have length : ((world.record (.hostSend id src dest len)).countSent id len).hosts.length = world.hosts.length :=
      List.length_modify _ _ _
    rw [length] at beyond
    have inside := (List.getElem?_eq_some_iff.mp found).1
    have different : id ≠ other := fun same => absurd inside (Nat.not_lt.mpr (same ▸ beyond))
    rw [told, if_neg different, List.append_nil]
    exact counted.others other beyond

variable [SimRng R]

theorem counted_transmit {src dest : SocketAddr} (payload : List UInt8) (counted : Counted world)
    (found : world.hosts[id]? = some host) : Counted (transmit id src dest payload world) := by
  rcases transmit_cases id src dest payload world with unsent | sent
  · exact counted.quiet unsent
  · exact (counted.sent found).quiet sent

theorem counted_routeOut {source dest : SocketAddr} (payload : List UInt8) (counted : Counted world)
    (found : world.hosts[id]? = some host) : Counted (routeOut id source dest payload host world) := by
  unfold routeOut
  dsimp only
  split
  · refine counted_transmit payload (counted.moved found ?_ ?_) (setHost_self found)
    · rfl
    · rfl
  · have others := traverse_events world.agenda.now id dest 0 source host.natChain
    generalize traverse world.agenda.now id dest 0 source host.natChain = passed at others
    obtain ⟨chain, events, result⟩ := passed
    dsimp only at others ⊢
    have moved : Counted (world.setHost id { host with natChain := chain }) := counted.moved found rfl rfl
    have told := moved.quiet (quiet_foldl_record others _)
    have here : (events.foldl record (world.setHost id { host with natChain := chain })).hosts[id]? =
        some { host with natChain := chain } := by
      rw [hosts_foldl_record]
      exact setHost_self found
    split
    · exact counted_transmit payload told here
    · exact told

theorem counted_act (counted : Counted world) (act : Act world world') : Counted world' := by
  rcases act.cases with quiet | ⟨id, host, src, dst, found, rfl⟩ | ⟨id, host, source, dest, payload, found, rfl⟩
  · exact counted.quiet quiet
  · obtain ⟨-, datagrams, bytes⟩ := screen_keeps id world.agenda.now src dst host
    exact counted.moved found datagrams bytes
  · exact counted_routeOut payload counted found

theorem counted_kept : Kept (fun _ _ => True) (fun (world : SimWorld N G R) _ => Counted world) where
  act counted act := counted_act counted act
  idle counted _ := ⟨counted.counters, counted.others⟩
  pop counted popped := ⟨counted.counters, counted.others⟩
  links _ _ counted := ⟨counted.counters, counted.others⟩
  join {world _ _ _ _ _ _ _ _} counted _ := by
    refine ⟨fun id net there => ?_, fun id beyond => counted.others id ?_⟩
    · have there : ((world.hosts ++ [_]).map Host.net)[id]? = some net := there
      by_cases inside : id < world.hosts.length
      · rw [List.map_append, List.getElem?_append_left (by rwa [List.length_map])] at there
        exact counted.counters id net there
      · have none_ : world.sentLens id = [] := counted.others id (Nat.not_lt.mp inside)
        rw [List.map_append, List.getElem?_append_right (by rwa [List.length_map, ← Nat.not_lt])] at there
        have last := List.mem_of_getElem? there
        rw [List.map_singleton, List.mem_singleton] at last
        show net.sentDatagrams = (world.sentLens id).length ∧ net.sentBytes = (world.sentLens id).sum
        rw [none_, last]
        exact ⟨rfl, rfl⟩
    · rw [List.length_append] at beyond
      exact Nat.le_of_add_right_le beyond

/-- In every run, `host_sent` tells how many datagrams and bytes of a host the trace has on the wire. -/
theorem counters_agree (lan : LanOps G R) {ops : NodeOps N} (reports : Reports ops) {base : Instant} {rng : R}
    {inputs : List (WorldInput N G R)} {id : HostId} {sent : Nat × Nat} :
    let world := (run (step lan ops) (new base rng) inputs).1
    world.hostSent id = some sent → sent = ((world.sentLens id).length, (world.sentLens id).sum) := by
  intro world told
  have start : Counted (new base rng : SimWorld N G R) := ⟨fun _ _ there => (by cases there), fun _ _ => rfl⟩
  have counted : Counted world := kept_run lan counted_kept reports start (meets_true inputs)
  obtain ⟨host, found, rfl⟩ := Option.map_eq_some_iff.mp told
  have here : (world.hosts.map Host.net)[id]? = some host.net := by rw [List.getElem?_map, found, Option.map_some]
  obtain ⟨datagrams, bytes⟩ := counted.counters id host.net here
  exact Prod.ext datagrams bytes

theorem counters_agree_pair :
    let world := (run (step Gateway.lan pinger) (new 0 ()) (pair ++ [.tick 10000000])).1
    world.hostSent 0 = some (1, 1) ∧ (1, 1) = ((world.sentLens 0).length, (world.sentLens 0).sum) := by
  have reports : Reports pinger := fun _ _ _ member => absurd member List.not_mem_nil
  exact ⟨by decide, counters_agree Gateway.lan reports (by decide)⟩

end

end SimWorld

end Lightbringer.Overlay.Sim
