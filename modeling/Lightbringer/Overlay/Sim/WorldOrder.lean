import Lightbringer.Lib.Machine
import Lightbringer.Overlay.Sim.WorldSteps

/-!
# The order of events in the simulated world

Whatever runs on the hosts: events are dispatched in the order of their times, each once. Datagrams that keep the order
of their link arrive in the order they were sent. If every link takes some time, `run_for` ends.
-/

namespace Lightbringer.Overlay.Sim
open Machine PortMap

variable {N G R : Type}

namespace SimWorld

/-- The world, beside the entries dispatched so far. -/
structure Orderly (world : SimWorld N G R) (taken : List (Agenda.Entry UInt64 EventKind)) : Prop where
  kept : world.agenda.Kept taken
  line : ∀ link, ∀ a ∈ world.agenda.entries, ∀ b ∈ world.agenda.entries,
    a.event.via = some link → b.event.via = some link → a.seq < b.seq → a.due ≤ b.due
  horizon : ∀ link, ∀ a ∈ world.agenda.entries, a.event.via = some link → a.due ≤ world.linkHorizon.getD link 0
  ahead : ∀ link, ∀ a ∈ taken, ∀ b ∈ world.agenda.entries,
    a.event.via = some link → b.event.via = some link → a.seq < b.seq
  past : taken.Pairwise (fun a b => ∀ link, a.event.via = some link → b.event.via = some link → a.seq < b.seq)

section
variable {least : Nat} {touched : Option HostId} {world world' : SimWorld N G R}
  {taken : List (Agenda.Entry UInt64 EventKind)}

theorem Orderly.congr (orderly : Orderly world taken) (agenda : world'.agenda = world.agenda)
    (same : world'.linkHorizon = world.linkHorizon) : Orderly world' taken := by
  obtain ⟨kept, line, horizon, ahead, past⟩ := orderly
  refine ⟨?_, ?_, ?_, ?_, past⟩
  all_goals rw [agenda]
  · exact kept
  · exact line
  · rw [same]
    exact horizon
  · exact ahead

/-- An entry that keeps the order of a link becomes its horizon. -/
theorem Orderly.push {due : UInt64} {event : EventKind} (orderly : Orderly world taken)
    (agenda : world'.agenda = world.agenda.push due event) (reached : world.agenda.now ≤ due)
    (mine : ∀ link, event.via = some link →
      world.linkHorizon.getD link 0 ≤ due ∧ world'.linkHorizon.getD link 0 = due)
    (others : ∀ link, event.via ≠ some link → world'.linkHorizon.getD link 0 = world.linkHorizon.getD link 0) :
    Orderly world' taken := by
  have newest : ∀ other ∈ world.agenda.entries, other.seq ≤ world.agenda.seq :=
    fun other member => orderly.kept.seq_le (List.mem_append_right _ member)
  refine ⟨agenda ▸ orderly.kept.push reached, ?_, ?_, ?_, orderly.past⟩
  all_goals rw [agenda]
  · intro link a inA b inB viaA viaB less
    rcases Agenda.mem_push.mp inA with rfl | oldA
    · rcases Agenda.mem_push.mp inB with rfl | oldB
      · exact le_refl _
      · have older := newest b oldB
        simp only at less
        omega
    · rcases Agenda.mem_push.mp inB with rfl | oldB
      · exact (orderly.horizon link a oldA viaA).trans (mine link viaB).1
      · exact orderly.line link a oldA b oldB viaA viaB less
  · intro link a inA viaA
    rcases Agenda.mem_push.mp inA with rfl | oldA
    · exact (mine link viaA).2.ge
    · have within := orderly.horizon link a oldA viaA
      by_cases same : event.via = some link
      · rw [(mine link same).2]
        exact within.trans (mine link same).1
      · rw [others link same]
        exact within
  · intro link a inA b inB viaA viaB
    rcases Agenda.mem_push.mp inB with rfl | oldB
    · exact Nat.lt_succ_of_le (orderly.kept.seq_le (List.mem_append_left _ inA))
    · exact orderly.ahead link a inA b oldB viaA viaB

theorem reached_of_ahead {now due : UInt64} (ahead : now.toNat + least ≤ due.toNat) : now ≤ due :=
  UInt64.le_iff_toNat_le.mpr ((Nat.le_add_right _ _).trans ahead)

theorem Change.orderly (change : Change least touched world world') (orderly : Orderly world taken) :
    Orderly world' taken := by
  cases change with
  | quiet agenda horizon _ _ => exact orderly.congr agenda horizon
  | pushed ahead unordered _ =>
    refine orderly.push rfl (reached_of_ahead ahead) (fun link via => ?_) (fun _ _ => rfl)
    rw [unordered] at via
    cases via
  | carried ahead ordered beyond =>
    refine orderly.push rfl (reached_of_ahead ahead) (fun link via => ?_) (fun link via => ?_)
    · obtain rfl := Option.some.inj (ordered.symm.trans via)
      exact ⟨beyond, Std.TreeMap.getD_insert_self⟩
    · rw [ordered] at via
      show (world.linkHorizon.insert _ _).getD link 0 = _
      rw [Std.TreeMap.getD_insert, if_neg (fun same => via (congrArg some (Std.LawfulEqOrd.compare_eq_iff_eq.mp same)))]

theorem Evolves.orderly (evolves : Evolves least touched world world') (orderly : Orderly world taken) :
    Orderly world' taken := by
  induction evolves with
  | refl => exact orderly
  | tail _ change ih => exact change.orderly ih

/-- The least a timer lies ahead of the clock does not wrap. -/
theorem lt_wakeUp (roomy : Roomy least world.agenda.now world) (deadline : Instant) :
    world.agenda.now.toNat + timerMinAdvance.toNat ≤ (world.wakeUp deadline).toNat := by
  have fits : world.agenda.now.toNat + timerMinAdvance.toNat < 2 ^ 64 :=
    Nat.lt_of_le_of_lt (Nat.add_le_add_left (by decide) _) roomy.gateway
  rw [← toNat_add_of_fits fits]
  exact UInt64.le_iff_toNat_le.mp (le_max_right _ _)

variable [SimRng R] {ops : NodeOps N} {id : HostId}

omit [SimRng R] in
theorem Armed.orderly (armed : Armed ops id world world') (roomy : Roomy least world.agenda.now world)
    (orderly : Orderly world taken) : Orderly world' taken := by
  cases armed with
  | absent => exact orderly
  | dropped => exact orderly.congr rfl rfl
  | kept => exact orderly
  | made =>
    refine orderly.push rfl (reached_of_ahead (lt_wakeUp roomy _)) (fun link via => ?_) (fun _ _ => rfl)
    cases via

omit [SimRng R] in
theorem Outcome.orderly (outcome : Outcome ops least world world') (roomy : Roomy least world.agenda.now world)
    (orderly : Orderly world taken) : Orderly world' taken := by
  cases outcome with
  | idle evolves => exact evolves.orderly orderly
  | touched evolves =>
    exact (armed_rescheduleTimer ops _ _).orderly (evolves.roomy roomy) (evolves.orderly orderly)

omit [SimRng R] in
/-- An entry that is taken is the first of its link. -/
theorem Orderly.pop {target : UInt64} {entry : Agenda.Entry UInt64 EventKind} {rest : Agenda UInt64 EventKind}
    (orderly : Orderly world taken) (popped : world.agenda.pop target = some (entry, rest)) :
    Orderly (world.putAgenda rest) (taken ++ [entry]) := by
  have inside : entry ∈ world.agenda.entries := by
    obtain ⟨tail, found, -, -⟩ := Agenda.pop_eq_some popped
    rw [found]
    exact List.mem_cons_self
  have older : ∀ other ∈ rest.entries, other ∈ world.agenda.entries := fun other member => Agenda.mem_of_pop popped member
  refine ⟨orderly.kept.pop popped, ?_, ?_, ?_, ?_⟩
  · exact fun link a inA b inB => orderly.line link a (older a inA) b (older b inB)
  · exact fun link a inA => orderly.horizon link a (older a inA)
  · intro link a inA b inB viaA viaB
    rcases List.mem_append.mp inA with old | last
    · exact orderly.ahead link a old b (older b inB) viaA viaB
    · obtain rfl := List.mem_singleton.mp last
      rcases Agenda.Entry.key_lt.mp (orderly.kept.first popped inB) with before | tie
      · by_contra behind
        rcases Nat.lt_or_eq_of_le (Nat.not_lt.mp behind) with less | equal
        · exact absurd before (not_lt.mpr (orderly.line link b (older b inB) a inside viaB viaA less))
        · exact orderly.kept.seq_ne popped inB equal
      · exact tie.2
  · refine List.pairwise_append.mpr ⟨orderly.past, List.pairwise_singleton _ _, fun a inA b inB => ?_⟩
    obtain rfl := List.mem_singleton.mp inB
    exact fun link viaA viaB => orderly.ahead link a inA b inside viaA viaB

/-! ### Runs -/

variable (lan : LanOps G R) (ops : NodeOps N)

/-- Time does not go back, and no addition to it wraps. -/
def Fits (world : SimWorld N G R) : WorldInput N G R → Prop
  | .tick target => world.agenda.now ≤ target ∧ Roomy 0 target world
  | _ => Roomy 0 world.agenda.now world

theorem step_tick_none {target : UInt64} (popped : world.agenda.pop target = none) :
    step lan ops world (.tick target) = (world.putAgenda { world.agenda with now := target }, []) := by
  unfold step Agenda.tick
  dsimp only
  rw [popped]
  rfl

theorem step_tick_some {target : UInt64} {entry : Agenda.Entry UInt64 EventKind} {rest : Agenda UInt64 EventKind}
    (popped : world.agenda.pop target = some (entry, rest)) :
    step lan ops world (.tick target) = (dispatch lan ops (world.putAgenda rest) entry.event, [entry]) := by
  unfold step Agenda.tick
  dsimp only
  rw [popped]
  rfl

theorem outcome_tick {target : UInt64} {entry : Agenda.Entry UInt64 EventKind} {rest : Agenda UInt64 EventKind}
    (kept : world.agenda.Kept taken) (popped : world.agenda.pop target = some (entry, rest))
    (roomy : Roomy least target world) :
    Roomy least (world.putAgenda rest).agenda.now (world.putAgenda rest) ∧
      Outcome ops least (world.putAgenda rest) (dispatch lan ops (world.putAgenda rest) entry.event) := by
  obtain ⟨_, -, reached, -⟩ := Agenda.pop_eq_some popped
  have clock : rest.now ≤ target := (kept.pop_now popped).trans_le reached
  have here : Roomy least (world.putAgenda rest).agenda.now (world.putAgenda rest) :=
    (roomy.mono clock).congr ⟨rfl, rfl, rfl⟩
  exact ⟨here, outcome_dispatch lan ops entry.event here⟩

theorem orderly_step {input : WorldInput N G R} (orderly : Orderly world taken) (fits : Fits world input) :
    Orderly (step lan ops world input).1 (taken ++ (step lan ops world input).2) := by
  cases input with
  | tick target =>
    obtain ⟨forward, roomy⟩ := fits
    cases popped : world.agenda.pop target with
    | none =>
      obtain ⟨kept, line, horizon, ahead, past⟩ := orderly
      rw [step_tick_none lan ops popped, List.append_nil]
      exact ⟨kept.advance forward popped, line, horizon, ahead, past⟩
    | some next =>
      obtain ⟨entry, rest⟩ := next
      rw [step_tick_some lan ops popped]
      obtain ⟨here, outcome⟩ := outcome_tick lan ops orderly.kept popped roomy
      exact outcome.orderly here (orderly.pop popped)
  | join natChain v6 gateway env kind owned =>
    rw [step, List.append_nil]
    exact (armed_rescheduleTimer ops _ _).orderly (fits.congr ⟨rfl, rfl, rfl⟩) (orderly.congr rfl rfl)
  | setDefaultLink params =>
    rw [step, List.append_nil]
    exact orderly.congr rfl rfl
  | setLink link params =>
    rw [step, List.append_nil]
    exact orderly.congr rfl rfl
  | setHostUp id up =>
    rw [step, List.append_nil, setHostUp]
    split
    · exact orderly
    · split
      · exact orderly
      · split
        · exact (armed_rescheduleTimer ops _ _).orderly (fits.congr ⟨rfl, rfl, rfl⟩) (orderly.congr rfl rfl)
        · exact orderly.congr rfl rfl
  | restart id fresh =>
    rw [step, List.append_nil, restart]
    split
    · exact orderly
    · split
      · exact orderly
      · exact (armed_rescheduleTimer ops _ _).orderly (fits.congr ⟨rfl, rfl, rfl⟩) (orderly.congr rfl rfl)
  | call id f =>
    rw [step, List.append_nil]
    exact (outcome_postProcess lan ops evolves_withHost fits).orderly fits orderly
  | inspect id f =>
    rw [step, List.append_nil]
    have looked : Evolves 0 (some id) world (world.withHost id (fun _ node => .done (f node))) := evolves_withHost
    exact looked.orderly orderly
  | probeBind id port =>
    unfold step
    dsimp only
    split
    all_goals rw [List.append_nil]
    · exact orderly
    · exact orderly.congr rfl rfl
  | probeSend id socket dest payload =>
    unfold step
    dsimp only
    split
    all_goals rw [List.append_nil]
    · exact orderly
    next source _ =>
      have sent : Evolves 0 none world (route lan id world (source, dest, payload)) := evolves_route lan fits
      exact sent.orderly orderly

omit [SimRng R] in
theorem orderly_new (base : Instant) (rng : R) : Orderly (new base rng : SimWorld N G R) [] :=
  ⟨Agenda.kept_fresh 0, fun _ _ member => absurd member List.not_mem_nil, fun _ _ member => absurd member List.not_mem_nil,
    fun _ _ member => absurd member List.not_mem_nil, .nil⟩

theorem orderly_run {base : Instant} {rng : R} {inputs : List (WorldInput N G R)}
    (fits : Meets (step lan ops) Fits (new base rng) inputs) :
    Orderly (run (step lan ops) (new base rng) inputs).1 (run (step lan ops) (new base rng) inputs).2 :=
  run_history (P := fun _ world taken => Orderly world taken) (orderly_new base rng)
    (fun _ _ _ _ orderly fits => orderly_step lan ops orderly fits) inputs fits

/-- In every run, events are dispatched in the order of their times, ties in the order they were made, and each that was
made was dispatched once or waits. On each link, datagrams that keep its order arrive in the order they were sent, and
none of them waits while a later one has arrived. -/
theorem dispatched_in_order {base : Instant} {rng : R} {inputs : List (WorldInput N G R)}
    (fits : Meets (step lan ops) Fits (new base rng) inputs) :
    let (world, taken) := run (step lan ops) (new base rng : SimWorld N G R) inputs
    taken.Pairwise (fun a b => a.due < b.due ∨ a.due = b.due ∧ a.seq < b.seq) ∧
      ((taken ++ world.agenda.entries).map (·.seq)).Perm (List.range' 1 world.agenda.seq) ∧
      ∀ link, (taken.filter (fun entry => entry.event.via = some link)).Pairwise (fun a b => a.seq < b.seq) ∧
        ∀ arrived ∈ taken, ∀ waiting ∈ world.agenda.entries,
          arrived.event.via = some link → waiting.event.via = some link → arrived.seq < waiting.seq := by
  obtain ⟨kept, -, -, ahead, past⟩ := orderly_run lan ops fits
  refine ⟨?_, kept.numbered, fun link => ⟨?_, ahead link⟩⟩
  · exact (List.pairwise_append.mp kept.ordered).1.imp Agenda.Entry.key_lt.mp
  · refine (past.filter _).imp_of_mem (fun inA inB order => order link ?_ ?_)
    · exact of_decide_eq_true (List.mem_filter.mp inA).2
    · exact of_decide_eq_true (List.mem_filter.mp inB).2

/-- A node that sends one datagram at its deadline. -/
def pinger : NodeOps (Option Instant) where
  onTimer _ _ := .send 0 ⟨.v4 0xcb007102, 8001⟩ [1] (.done none)
  onDatagram _ _ _ _ node := .done node
  onTcpEvent _ _ node := .done node
  onRepairResponse _ _ _ node := .done node
  lookupRepair _ _ := none
  pollTimeout node := node
  pollEvents _ node := (node, [], [])
  passes _ := 1

instance : SimRng Unit where
  nextU64 _ := (0, ())
  randomBool _ _ := (false, ())
  randomDelay _ low _ := (low, ())
  le_randomDelay _ low _ _ := le_refl low
  randomDelay_le _ _ _ order := order

def publicEnv (octets : BitVec 32) (port : UInt16) : HostEnvState Unit :=
  ⟨.v4 octets, none, [some ⟨.v4 octets, port⟩], [], [], [], [], 0, (), ephemeralPortStart⟩

/-- A node with a deadline at 1 ms, and the probe it sends to. -/
def pair : List (WorldInput (Option Instant) Gateway Unit) :=
  [.join [] none none (publicEnv 0xcb007101 65410) (.node (some 1000000)) [.v4 0xcb007101],
    .join [] none none (publicEnv 0xcb007102 8001) (.probe []) [.v4 0xcb007102]]

def pairWorld : SimWorld (Option Instant) Gateway Unit := (run (step Gateway.lan pinger) (new 0 ()) pair).1

theorem paced_standard {least : Nat} {now : UInt64} (le_one : least ≤ 1) (early : now ≤ 1000000000) :
    Paced least now LinkParams.standard := by
  have bound : now.toNat ≤ 1000000000 := UInt64.le_iff_toNat_le.mp early
  refine ⟨le_one.trans (by decide), ?_, ?_⟩
  all_goals
    have delay : (asNanos (fromMillis 1)).toNat = 1000000 ∧ (asNanos (fromMillis 2)).toNat = 2000000 := by decide
    simp only [LinkParams.standard, delay]
    omega

theorem roomy_standard {least : Nat} {now : UInt64} {world : SimWorld (Option Instant) Gateway Unit} (le_one : least ≤ 1)
    (early : now ≤ 1000000000) (links : world.links = ∅) (default : world.defaultLink = .standard) :
    Roomy least now world := by
  have bound : now.toNat ≤ 1000000000 := UInt64.le_iff_toNat_le.mp early
  refine ⟨le_one, ?_, fun link => ?_⟩
  · have delay : gatewayDelay.toNat = 1000000 := rfl
    omega
  · rw [links, default, Std.TreeMap.getD_emptyc]
    exact paced_standard le_one early

theorem pair_fits : Meets (step Gateway.lan pinger) Fits (new 0 ()) pair :=
  ⟨roomy_standard (by decide) (by decide) rfl rfl, roomy_standard (by decide) (by decide) rfl rfl, trivial⟩

theorem dispatched_in_order_pair :
    (run (step Gateway.lan pinger) (new 0 ()) (pair ++ [.tick 10000000, .tick 10000000])).2.map (fun e => (e.due, e.seq)) =
        [(1000000, 1), (2000000, 2)] ∧
      (run (step Gateway.lan pinger) (new 0 ()) (pair ++ [.tick 10000000, .tick 10000000])).2.Pairwise
        (fun a b => a.due < b.due ∨ a.due = b.due ∧ a.seq < b.seq) := by
  have fits : Meets (step Gateway.lan pinger) Fits (new 0 ()) (pair ++ [.tick 10000000, .tick 10000000]) := by
    refine (meets_append _ _).mpr ⟨pair_fits, ⟨by decide, ?_⟩, ⟨by decide, ?_⟩, trivial⟩
    · exact roomy_standard (by decide) (by decide) rfl rfl
    · exact roomy_standard (by decide) (by decide) rfl rfl
  exact ⟨by decide, (dispatched_in_order Gateway.lan pinger fits).1⟩

/-! ### The end of `run_for` -/

omit [SimRng R] in
theorem Evolves.grown (evolves : Evolves least touched world world') :
    Agenda.Grown (fun due _ => world.agenda.now.toNat + least ≤ due.toNat) world.agenda world'.agenda := by
  induction evolves with
  | refl => exact .refl
  | tail before change ih =>
    have clock := (Evolves.config before).2
    cases change with
    | quiet agenda => exact agenda ▸ ih
    | pushed ahead => exact ih.push (clock ▸ ahead)
    | carried ahead => exact ih.push (clock ▸ ahead)

omit [SimRng R] in
theorem Armed.grown (armed : Armed ops id world world') (roomy : Roomy least world.agenda.now world) :
    Agenda.Grown (fun due _ => world.agenda.now.toNat + least ≤ due.toNat) world.agenda world'.agenda ∧
      SameConfig world world' := by
  cases armed with
  | absent => exact ⟨.refl, .refl _⟩
  | dropped => exact ⟨.refl, rfl, rfl, rfl⟩
  | kept => exact ⟨.refl, .refl _⟩
  | made =>
    refine ⟨Agenda.Grown.refl.push ?_, rfl, rfl, rfl⟩
    exact (Nat.add_le_add_left (roomy.least_le.trans (by decide)) _).trans (lt_wakeUp roomy _)

omit [SimRng R] in
theorem Outcome.grown (outcome : Outcome ops least world world') (roomy : Roomy least world.agenda.now world) :
    Agenda.Grown (fun due _ => world.agenda.now.toNat + least ≤ due.toNat) world.agenda world'.agenda ∧
      SameConfig world world' := by
  cases outcome with
  | idle evolves => exact ⟨evolves.grown, evolves.config.1⟩
  | touched evolves =>
    obtain ⟨grown, config⟩ := (armed_rescheduleTimer ops _ _).grown ops (evolves.roomy roomy)
    rw [evolves.config.2] at grown
    exact ⟨evolves.grown.trans grown, evolves.config.1.trans config⟩

theorem run_for_step {target : UInt64} (roomy : Roomy least target world) (clock : world.agenda.now ≤ target)
    {entry : Agenda.Entry UInt64 EventKind} {rest : Agenda UInt64 EventKind}
    (popped : world.agenda.pop target = some (entry, rest)) :
    let next := dispatch lan ops (world.putAgenda rest) entry.event
    Roomy least target next ∧ next.agenda.now ≤ target ∧
      Agenda.Grown (fun due _ => rest.now.toNat + least ≤ due.toNat) rest next.agenda := by
  obtain ⟨tail, -, reached, made⟩ := Agenda.pop_eq_some popped
  have order : rest.now ≤ target := by
    rw [made]
    exact max_le reached clock
  have same : SameConfig world (world.putAgenda rest) := ⟨rfl, rfl, rfl⟩
  have here : Roomy least (world.putAgenda rest).agenda.now (world.putAgenda rest) := (roomy.mono order).congr same
  obtain ⟨grown, config⟩ := (outcome_dispatch lan ops entry.event here).grown ops here
  refine ⟨roomy.congr (same.trans config), ?_, grown⟩
  rw [grown.now]
  exact order

omit [SimRng R] in
theorem Roomy.weaken {target : UInt64} (roomy : Roomy least target world) : Roomy 0 target world :=
  ⟨Nat.zero_le _, roomy.gateway,
    fun link => ⟨Nat.zero_le _, (roomy.link link).min_fits, (roomy.link link).max_fits⟩⟩

/-- What `run_for` did, as rounds of the run. -/
structure RanFor (target : UInt64) (world final : SimWorld N G R) (rounds : Nat)
    (more : List (Agenda.Entry UInt64 EventKind)) : Prop where
  run : run (step lan ops) world (List.replicate rounds (.tick target)) = (final, more)
  met : Meets (step lan ops) Fits world (List.replicate rounds (.tick target))
  now : final.agenda.now = target
  left : final.agenda.pop target = none
  all : ∀ entry ∈ world.agenda.entries, entry ∈ more ∨ entry ∈ final.agenda.entries

theorem ranFor_of_runFor {target : UInt64} {final : SimWorld N G R} (fuel : Nat) (world : SimWorld N G R)
    (roomy : Roomy 1 target world) (clock : world.agenda.now ≤ target)
    (ends : runFor lan ops target fuel world = some final) :
    ∃ rounds more, RanFor lan ops target world final rounds more := by
  induction fuel generalizing world with
  | zero => cases ends
  | succ fuel ih =>
    unfold runFor at ends ih
    rw [Agenda.runFor, Agenda.tick] at ends
    have fits : Fits world (.tick target) := ⟨clock, roomy.weaken⟩
    cases popped : world.agenda.pop target with
    | none =>
      rw [popped] at ends
      obtain rfl := Option.some.inj ends
      refine ⟨1, [], ?_, ⟨fits, trivial⟩, rfl, ?_, fun entry member => .inr member⟩
      · rw [List.replicate_one, run_cons, step_tick_none lan ops popped]
        rfl
      · have later := Agenda.pop_eq_none.mp popped
        exact Agenda.pop_eq_none.mpr later
    | some next =>
      obtain ⟨entry, rest⟩ := next
      rw [popped] at ends
      obtain ⟨roomy', clock', grown⟩ := run_for_step lan ops roomy clock popped
      obtain ⟨rounds, more, ran⟩ := ih _ roomy' clock' ends
      refine ⟨rounds + 1, entry :: more, ?_, ?_, ran.now, ran.left, fun other member => ?_⟩
      · rw [List.replicate_succ, run_cons, step_tick_some lan ops popped, ran.run]
        rfl
      · rw [List.replicate_succ, meets_cons, step_tick_some lan ops popped]
        exact ⟨fits, ran.met⟩
      · obtain ⟨tail, found, -, rfl⟩ := Agenda.pop_eq_some popped
        rw [found] at member
        rcases List.mem_cons.mp member with rfl | inside
        · exact .inl List.mem_cons_self
        · exact (ran.all other (grown.subset inside)).imp_left (List.mem_cons_of_mem _)

instance wellFoundedGTUInt64 : WellFoundedGT UInt64 :=
  ⟨Subrelation.wf (fun {a b} (less : b < a) => Nat.sub_lt_sub_left b.toNat_lt (UInt64.lt_iff_toNat_lt.mp less))
    (InvImage.wf (fun time : UInt64 => 2 ^ 64 - time.toNat) Nat.lt_wfRel.wf)⟩

/-- In every run: where each link takes some time, `run_for` ends. It stops at its time, everything due by then was
dispatched, and what waits is due later. -/
theorem run_for_ends {base : Instant} {rng : R} {inputs : List (WorldInput N G R)} {target : UInt64}
    (fits : Meets (step lan ops) Fits (new base rng) inputs) :
    let world := (run (step lan ops) (new base rng : SimWorld N G R) inputs).1
    world.agenda.now ≤ target → Roomy 1 target world → ∃ fuel final rounds more,
      runFor lan ops target fuel world = some final ∧
        run (step lan ops) world (List.replicate rounds (.tick target)) = (final, more) ∧ final.agenda.now = target ∧
          (∀ entry ∈ final.agenda.entries, target < entry.due) ∧
            ∀ entry ∈ world.agenda.entries, entry.due ≤ target → entry ∈ more := by
  intro world clock roomy
  obtain ⟨fuel, final, ends⟩ : ∃ fuel final, runFor lan ops target fuel world = some final := by
    refine Agenda.runFor_ends (P := fun world => Roomy 1 target world ∧ world.agenda.now ≤ target) ?_ ?_ world
      ⟨roomy, clock⟩
    · intro s entry rest held popped
      obtain ⟨roomy, clock, -⟩ := run_for_step lan ops held.1 held.2 popped
      exact ⟨roomy, clock⟩
    · intro s entry rest held popped
      obtain ⟨-, -, grown⟩ := run_for_step lan ops held.1 held.2 popped
      exact grown.mono (fun due _ ahead => UInt64.lt_iff_toNat_lt.mpr ahead)
  obtain ⟨rounds, more, ran⟩ := ranFor_of_runFor lan ops fuel world roomy clock ends
  have whole : Meets (step lan ops) Fits (new base rng) (inputs ++ List.replicate rounds (.tick target)) :=
    (meets_append _ _).mpr ⟨fits, ran.met⟩
  have kept := (orderly_run lan ops whole).kept
  rw [run_append, ran.run] at kept
  have later : ∀ entry ∈ final.agenda.entries, target < entry.due := fun _ member => kept.not_due ran.left member
  refine ⟨fuel, final, rounds, more, ends, ran.run, ran.now, later, fun entry member due => ?_⟩
  exact (ran.all entry member).resolve_right (fun waiting => absurd due (not_le.mpr (later entry waiting)))

theorem run_for_ends_pair : ∃ fuel final rounds more,
    runFor Gateway.lan pinger 10000000 fuel pairWorld = some final ∧
      run (step Gateway.lan pinger) pairWorld (List.replicate rounds (.tick 10000000)) = (final, more) ∧
        final.agenda.now = 10000000 ∧ (∀ entry ∈ final.agenda.entries, 10000000 < entry.due) ∧
          ∀ entry ∈ pairWorld.agenda.entries, entry.due ≤ 10000000 → entry ∈ more :=
  run_for_ends Gateway.lan pinger pair_fits (by decide) (roomy_standard (by decide) (by decide) rfl rfl)

end

end SimWorld

end Lightbringer.Overlay.Sim
